import SimAgentNet.Data.SortedMap
import SimAgentNet.Data.Effect

/-! # The protocol registry

`register` inserts before it looks whether the id was taken, so a refused call replaces the
protocol. `registration_atomic_iff` says which runs do not notice. -/

namespace SimAgentNet.ModelTest

structure ProtocolMetadata where
  id : String
  domain : String
  role : String
  family : String
  revision : String
deriving DecidableEq

class ModelTaskProtocol (Protocol : Type) where
  metadata : Protocol → ProtocolMetadata

inductive ProtocolError where
  | duplicateId (id : String)
  | unknownProtocol (id : String)
deriving DecidableEq

structure ProtocolRegistry (Protocol : Type) where
  protocols : SortedMap String Protocol
deriving DecidableEq

variable {Protocol : Type} [ModelTaskProtocol Protocol]

/-- The id under which a protocol is registered. -/
def idOf (protocol : Protocol) : String := (ModelTaskProtocol.metadata protocol).id

namespace ProtocolRegistry

def register (protocol : Protocol) : Effect ProtocolError (ProtocolRegistry Protocol) Unit := do
  let registry ← .get
  let id := idOf protocol
  let prior := registry.protocols.get? id
  .modify fun r => ⟨r.protocols.insert id protocol⟩
  if prior.isSome then .fail (.duplicateId id) else return

def load (registry : ProtocolRegistry Protocol) (id : String) : Except ProtocolError Protocol :=
  match registry.protocols.get? id with
  | some protocol => .ok protocol
  | none => .error (.unknownProtocol id)

/-- The registry after some calls, whatever they return. -/
def run (calls : List Protocol) : ProtocolRegistry Protocol :=
  calls.foldl (fun registry protocol => (register protocol registry).2) ⟨∅⟩

variable {calls : List Protocol} {protocol : Protocol} {id : String}

theorem register_apply (protocol : Protocol) (registry : ProtocolRegistry Protocol) :
    register protocol registry =
      (if (registry.protocols.get? (idOf protocol)).isSome then
          .error (.duplicateId (idOf protocol)) else .ok (),
        ⟨registry.protocols.insert (idOf protocol) protocol⟩) := by
  simp only [register, Bind.bind, Effect.bind, Effect.get_apply, Effect.modify_apply]
  cases registry.protocols.get? (idOf protocol) <;> rfl

theorem run_concat (calls : List Protocol) (protocol : Protocol) :
    run (calls ++ [protocol]) = ⟨(run calls).protocols.insert (idOf protocol) protocol⟩ := by
  rw [run, List.foldl_concat, register_apply]
  rfl

/-- An id has the last protocol that a call has passed for it. -/
theorem get?_run_concat (calls : List Protocol) (protocol : Protocol) (id : String) :
    (run (calls ++ [protocol])).protocols.get? id =
      if id = idOf protocol then some protocol else (run calls).protocols.get? id := by
  rw [run_concat, SortedMap.get?_insert]

theorem mem_of_get?_run (h : (run calls).protocols.get? id = some protocol) :
    protocol ∈ calls ∧ idOf protocol = id := by
  induction calls using List.reverseRecOn with
  | nil => cases h
  | append_singleton calls last ih =>
    rw [get?_run_concat] at h
    by_cases hid : id = idOf last
    · rw [if_pos hid] at h
      cases h
      exact ⟨List.mem_append_right _ List.mem_cons_self, hid.symm⟩
    · rw [if_neg hid] at h
      exact ⟨List.mem_append_left _ (ih h).1, (ih h).2⟩

theorem exists_get?_run (h : protocol ∈ calls) :
    ∃ other, (run calls).protocols.get? (idOf protocol) = some other := by
  induction calls using List.reverseRecOn with
  | nil => cases h
  | append_singleton calls last ih =>
    rw [get?_run_concat]
    by_cases hid : idOf protocol = idOf last
    · exact ⟨last, if_pos hid⟩
    · rw [if_neg hid]
      obtain h | h := List.mem_append.mp h
      · exact ih h
      · exact absurd (congrArg idOf (List.mem_singleton.mp h)) hid

/-- A call succeeds when it is the first one with its id. -/
theorem register_ok_iff :
    (register protocol (run calls)).1 = .ok () ↔ ∀ other ∈ calls, idOf other ≠ idOf protocol := by
  rw [register_apply]
  cases hget : (run calls).protocols.get? (idOf protocol) with
  | some prior =>
    obtain ⟨hmem, hid⟩ := mem_of_get?_run hget
    exact iff_of_false nofun fun h => h prior hmem hid
  | none =>
    refine iff_of_true rfl fun other hother hid => ?_
    obtain ⟨prior, hprior⟩ := exists_get?_run hother
    rw [hid, hget] at hprior
    cases hprior

variable (calls) in
/-- In each state of the run, `load` gives the protocol of the call that succeeded for the id, and
a call that is refused leaves all lookups. -/
structure Atomic : Prop where
  loads : ∀ before protocol mid after, calls = before ++ protocol :: (mid ++ after) →
    (register protocol (run before)).1 = .ok () →
      (run (before ++ protocol :: mid)).load (idOf protocol) = .ok protocol
  leaves : ∀ before protocol after, calls = before ++ protocol :: after →
    (register protocol (run before)).1 = .error (.duplicateId (idOf protocol)) →
      ∀ id, (register protocol (run before)).2.load id = (run before).load id

omit [ModelTaskProtocol Protocol] in
theorem load_eq_ok_iff {registry : ProtocolRegistry Protocol} :
    registry.load id = .ok protocol ↔ registry.protocols.get? id = some protocol := by
  rw [load]
  cases registry.protocols.get? id with
  | none => exact iff_of_false nofun nofun
  | some other => rw [Except.ok.injEq, Option.some.injEq]

theorem register_snd (calls : List Protocol) (protocol : Protocol) :
    (register protocol (run calls)).2 = run (calls ++ [protocol]) := by
  rw [register_apply, run_concat]

theorem atomic_of_agree (h : ∀ p ∈ calls, ∀ q ∈ calls, idOf p = idOf q → p = q) :
    Atomic calls := by
  constructor
  · intro before protocol mid after hcalls _
    have hmem : protocol ∈ before ++ protocol :: mid := by simp
    obtain ⟨other, hother⟩ := exists_get?_run hmem
    obtain ⟨hothermem, hid⟩ := mem_of_get?_run hother
    have hsub : before ++ protocol :: mid ⊆ calls := by
      rw [hcalls, ← List.cons_append, ← List.append_assoc]
      exact List.subset_append_left _ _
    rw [load_eq_ok_iff, hother, h other (hsub hothermem) protocol (hsub hmem) hid]
  · intro before protocol after hcalls hrefused id
    have hsub : before ++ [protocol] ⊆ calls := by
      rw [hcalls, List.append_cons before protocol after]
      exact List.subset_append_left _ _
    have hprior : ∃ prior, (run before).protocols.get? (idOf protocol) = some prior := by
      rw [register_apply] at hrefused
      cases hget : (run before).protocols.get? (idOf protocol) with
      | none =>
        rw [hget] at hrefused
        cases hrefused
      | some prior => exact ⟨prior, rfl⟩
    obtain ⟨prior, hprior⟩ := hprior
    obtain ⟨hmem, hid⟩ := mem_of_get?_run hprior
    have heq : prior = protocol :=
      h prior (hsub (List.mem_append_left _ hmem)) protocol (hsub (by simp)) hid
    rw [register_snd, load, load, get?_run_concat]
    by_cases hcase : id = idOf protocol
    · rw [if_pos hcase, hcase, hprior, heq]
    · rw [if_neg hcase]

/-- In an atomic run, each call finds what it passes after every later call. -/
theorem Atomic.get?_run (h : Atomic calls) {before after : List Protocol}
    (hcalls : calls = before ++ after) (hmem : protocol ∈ before) :
    (run before).protocols.get? (idOf protocol) = some protocol := by
  induction before using List.reverseRecOn generalizing after with
  | nil => cases hmem
  | append_singleton before last ih =>
    rw [List.append_assoc, List.singleton_append] at hcalls
    rw [get?_run_concat]
    by_cases hid : idOf protocol = idOf last
    · rw [if_pos hid]
      obtain hmem | hmem := List.mem_append.mp hmem
      · have hprior := ih hcalls hmem
        have hrefused : (register last (run before)).1 = .error (.duplicateId (idOf last)) := by
          rw [register_apply, ← hid, hprior]
          rfl
        have hload := h.leaves before last after hcalls hrefused (idOf protocol)
        rw [load_eq_ok_iff.mpr hprior, load_eq_ok_iff, register_snd, get?_run_concat,
          if_pos hid] at hload
        exact hload
      · rw [List.mem_singleton.mp hmem]
    · rw [if_neg hid]
      obtain hmem | hmem := List.mem_append.mp hmem
      · exact ih hcalls hmem
      · exact absurd (congrArg idOf (List.mem_singleton.mp hmem)) hid

/-- A run is atomic exactly when no two of its calls pass different protocols under one id. -/
theorem registration_atomic_iff (calls : List Protocol) :
    Atomic calls ↔ ∀ p ∈ calls, ∀ q ∈ calls, idOf p = idOf q → p = q := by
  constructor
  · intro h p hp q hq hid
    have hcalls : calls = calls ++ [] := (List.append_nil calls).symm
    have hfound := h.get?_run hcalls hp
    rw [hid, h.get?_run hcalls hq] at hfound
    exact (Option.some.inj hfound).symm
  · exact atomic_of_agree

end ProtocolRegistry

namespace Sample

/-- A protocol that is nothing but its metadata. -/
instance : ModelTaskProtocol ProtocolMetadata := ⟨fun metadata => metadata⟩

def protocol (revision : String) : ProtocolMetadata := ⟨"summary", "text", "writer", "core", revision⟩

end Sample

/-- The second call with an id is refused, and its protocol is there afterwards. -/
theorem refused_call_replaces :
    let first := Sample.protocol "r1"
    let second := Sample.protocol "r2"
    (ProtocolRegistry.register first (.run [])).1 = .ok () ∧
      (ProtocolRegistry.register second (.run [first])).1 = .error (.duplicateId "summary") ∧
      (ProtocolRegistry.run [first]).load "summary" = .ok first ∧
      (ProtocolRegistry.run [first, second]).load "summary" = .ok second ∧
      ¬ProtocolRegistry.Atomic [first, second] := by
  refine ⟨by decide +kernel, by decide +kernel, by decide +kernel, by decide +kernel, fun h => ?_⟩
  have hload := h.loads [] (Sample.protocol "r1") [Sample.protocol "r2"] [] rfl (by decide +kernel)
  exact absurd hload (by decide +kernel)

end SimAgentNet.ModelTest
