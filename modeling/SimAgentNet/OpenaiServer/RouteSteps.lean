import SimAgentNet.OpenaiServer.Responses

/-! # Steps of a route

What the steps that every route is made of keep: reading the clock, minting an id, asking the
kernel and writing the store. -/

namespace SimAgentNet.OpenaiServer

open Effect (Triple)

variable {Mode Cache Ids : Type}

namespace Route
variable {P : Ids → MemoryGatewayStore Mode → Prop}

/-- Whatever its outcome, a step of a route keeps a property of the generators and the store. -/
def Keeps (P : Ids → MemoryGatewayStore Mode → Prop) (x : Route Mode Cache Ids α) : Prop :=
  Triple (fun w => P w.ids w.store) x (fun _ w => P w.ids w.store) fun w => P w.ids w.store

theorem Keeps.bind {x : Route Mode Cache Ids α} {f : α → Route Mode Cache Ids β} (hx : Keeps P x)
    (hf : ∀ a, Keeps P (f a)) : Keeps P (x >>= f) :=
  Triple.bind hx hf

/-- A step that keeps `P`, in a route that ends with `E` when it fails. -/
theorem Keeps.within {x : Route Mode Cache Ids α} (hx : Keeps P x)
    {E : Work Mode Cache Ids → Prop} (he : ∀ w, P w.ids w.store → E w) :
    Triple (fun w => P w.ids w.store) x (fun _ w => P w.ids w.store) E :=
  hx.weaken (fun _ h => h) (fun _ _ h => h) he

theorem Keeps.pure (a : α) : Keeps P (Pure.pure a : Route Mode Cache Ids α) :=
  Triple.pure fun _ h => h

theorem Keeps.ofExcept (x : RouteResult α) : Keeps P (Effect.ofExcept x : Route Mode Cache Ids α) :=
  Triple.ofExcept (fun _ _ h _ => h) fun _ h => h

theorem Keeps.observe (f : Work Mode Cache Ids → RouteResult α) : Keeps P (Effect.observe f) :=
  Triple.observe (fun _ _ h _ => h) fun _ h => h

theorem Keeps.kernel (x : Except String α) : Keeps P (Route.kernel x : Route Mode Cache Ids α) :=
  Keeps.ofExcept _

/-- The kernel answers as it does, and the step keeps `P`. -/
theorem kernel_spec {x : Except String α} {E : Work Mode Cache Ids → Prop}
    (he : ∀ w, P w.ids w.store → E w) :
    Triple (fun w => P w.ids w.store) (Route.kernel x) (fun a w => x = .ok a ∧ P w.ids w.store) E :=
  .ofExcept (fun _ _ hw ha => ⟨Except.mapError_eq_ok_iff.mp ha, hw⟩) he

theorem Keeps.nowMs (host : Host Mode) : Keeps P (Route.nowMs host : Route Mode Cache Ids UInt64) := by
  intro w hw
  simp only [Route.nowMs]
  cases host.clock w.ticks <;> exact hw

theorem Keeps.write {f : MemoryGatewayStore Mode → MemoryGatewayStore Mode}
    (h : ∀ ids s, P ids s → P ids (f s)) : Keeps P (Route.write f : Route Mode Cache Ids Unit) :=
  Triple.modify fun w hw => h w.ids w.store hw

/-- An id is minted or the counter has run out. -/
theorem mint_spec {part : Ids → GatewayIdGenerator} {put : GatewayIdGenerator → Ids → Ids}
    {Q : String → Ids → MemoryGatewayStore Mode → Prop} {E : Ids → MemoryGatewayStore Mode → Prop}
    (hok : ∀ ids s, P ids s → Q (GatewayIdGenerator.format (part ids).stem (part ids).next)
      (put { part ids with next := (part ids).next + 1 } ids) s)
    (he : ∀ ids s, P ids s → E (put (part ids) ids) s) :
    Triple (fun w : Work Mode Cache Ids => P w.ids w.store) (Route.mint part put)
      (fun id w => Q id w.ids w.store) fun w => E w.ids w.store := by
  intro w hw
  simp only [Route.mint, GatewayIdGenerator.nextId]
  by_cases h : (part w.ids).next + 1 < 2 ^ 64
  · rw [if_pos h]
    exact hok _ _ hw
  · rw [if_neg h]
    exact he _ _ hw

theorem Keeps.mint {part : Ids → GatewayIdGenerator} {put : GatewayIdGenerator → Ids → Ids}
    (h : ∀ g ids s, P ids s → P (put g ids) s) :
    Keeps P (Route.mint part put : Route Mode Cache Ids String) :=
  mint_spec (fun _ _ hp => h _ _ _ hp) fun _ _ hp => h _ _ _ hp

/-- A route on a part of the generators, for each value of the rest. -/
theorem onIds_spec {Ids' : Type} {part : Ids → Ids'} {put : Ids' → Ids → Ids}
    (hput : ∀ ids, put (part ids) ids = ids) {x : Route Mode Cache Ids' α}
    {Q : α → Ids → MemoryGatewayStore Mode → Prop} {E : Ids → MemoryGatewayStore Mode → Prop}
    (h : ∀ ids, Triple (fun w : Work Mode Cache Ids' => P (put w.ids ids) w.store) x
      (fun a w => Q a (put w.ids ids) w.store) fun w => E (put w.ids ids) w.store) :
    Triple (fun w : Work Mode Cache Ids => P w.ids w.store) (Route.onIds part put x)
      (fun a w => Q a w.ids w.store) fun w => E w.ids w.store := by
  intro w hw
  have hx := h w.ids { w with ids := part w.ids } (by simpa only [hput] using hw)
  simp only [Route.onIds, Effect.focus]
  revert hx
  cases x { w with ids := part w.ids } with
  | mk result w' =>
    cases result with
    | ok a => exact id
    | error e => exact id

end Route

end SimAgentNet.OpenaiServer
