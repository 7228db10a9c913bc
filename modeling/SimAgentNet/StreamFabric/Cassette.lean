import SimAgentNet.Data.Effect
import SimAgentNet.Data.Keyed
import SimAgentNet.Kernel.Expr

/-! # Cassettes of content-addressed replies

Content keys of eval requests, the ledger adapter that stores replies under them, and the cassettes
that cache what the ledger holds. The ledger refuses a second result for a content id of its kernel
table; a cassette refuses a second reply for a key of its own cache. Both refuse silently, so a
cassette agrees with its ledger exactly when it never records a reply that the ledger drops. -/

namespace SimAgentNet.StreamFabric

/-- The canonical form of an expression. -/
inductive CanonicalKey where
  | atom (tag : String)
  | bool (tag : String) (value : Bool)
  | bytes (tag : String) (bytes : List UInt8)
  | string (tag value : String)
  | symbol (tag : String) (symbol : Symbol)
  | pair (tag left right : String)
  | compound (tag : String) (items : List CanonicalKey)
  | compoundNamed (tag : String) (items : List (String × CanonicalKey))

/-- What the kernel computes: the content id of a datum, which fails on a datum that is not
canonical, and the canonical form of an expression. -/
structure KernelApi (Mode : Type) where
  contentId : Datum → Except String ContentId
  canonicalKey : Expr Mode → CanonicalKey

/-- An eval request, with consistency and mode by their symbols. The deadline and the result shape
do not enter the content key. -/
structure EvalRequest (Mode : Type) where
  expr : Expr Mode
  requiredCapabilities : List String
  consistency : Symbol
  mode : Symbol
  answerLimit : Option Nat
  streamBuffer : Option Nat
  stream : Bool
  trace : Bool

section Datums

def field (name : String) (value : Datum) : Symbol × Datum := (.new name, value)

def taggedNode (kind tag : String) (fields : List (Symbol × Datum)) : Datum :=
  .node (.qualified "fabric" ("canonical-key-" ++ kind)) (field "tag" (.string tag) :: fields)

mutual
def canonicalKeyDatum : CanonicalKey → Datum
  | .atom tag => taggedNode "atom" tag []
  | .bool tag value => taggedNode "bool" tag [field "value" (.bool value)]
  | .bytes tag bytes => taggedNode "bytes" tag [field "value" (.bytes bytes)]
  | .string tag value => taggedNode "string" tag [field "value" (.string value)]
  | .symbol tag symbol => taggedNode "symbol" tag [field "value" (.symbol symbol)]
  | .pair tag left right =>
    taggedNode "pair" tag [field "left" (.string left), field "right" (.string right)]
  | .compound tag items => taggedNode "compound" tag [field "items" (.vector (itemDatums items))]
  | .compoundNamed tag items =>
    taggedNode "compound-named" tag [field "items" (.vector (namedDatums items))]
termination_by structural key => key

def itemDatums : List CanonicalKey → List Datum
  | [] => []
  | item :: items => canonicalKeyDatum item :: itemDatums items
termination_by structural items => items

def namedDatums : List (String × CanonicalKey) → List Datum
  | [] => []
  | (name, value) :: items =>
    .node (.qualified "fabric" "canonical-key-item")
      [field "name" (.string name), field "value" (canonicalKeyDatum value)] :: namedDatums items
termination_by structural items => items
end

def usizeDatum (value : Nat) : Datum := .number ⟨.qualified "core" "usize", toString value⟩

def optionalUsizeDatum (value : Option Nat) : Datum := value.elim .nil usizeDatum

def contentIdDatum (id : ContentId) : Datum :=
  .node (.qualified "fabric" "content-key")
    [field "algorithm" (.symbol id.algorithm), field "digest" (.bytes id.bytes)]

end Datums

/-- The content-addressed identity of a request: the datum of a content id. -/
structure ContentKey where
  id : ContentId
deriving DecidableEq

namespace ContentKey

def datum (key : ContentKey) : Datum := contentIdDatum key.id

theorem id_injective : Function.Injective ContentKey.id := fun ⟨_⟩ ⟨_⟩ h => congrArg _ h

-- keys only ever meet as map keys, so any order whose ties are equal datums serves
instance : LinearOrder ContentKey := .lift' ContentKey.id id_injective

end ContentKey

section Keys
variable {Mode : Type} (kernel : KernelApi Mode)

def requestContentDatum (request : EvalRequest Mode) : Datum :=
  let capabilities := request.requiredCapabilities.mergeSort (fun a b => decide (a ≤ b))
  .node (.qualified "fabric" "eval-request-content-key-v1")
    [field "expr" (canonicalKeyDatum (kernel.canonicalKey request.expr)),
     field "required-capabilities" (.vector (capabilities.map Datum.string)),
     field "consistency" (.symbol request.consistency),
     field "mode" (.symbol request.mode),
     field "answer-limit" (optionalUsizeDatum request.answerLimit),
     field "stream-buffer" (optionalUsizeDatum request.streamBuffer),
     field "stream" (.bool request.stream),
     field "trace" (.bool request.trace)]

/-- The key of a request. The code takes the request datum to be canonical and panics on one that
is not. -/
def ContentKey.fromRequest (request : EvalRequest Mode) : Except (Halt String) ContentKey :=
  match kernel.contentId (requestContentDatum kernel request) with
  | .ok id => .ok ⟨id⟩
  | .error _ => .error .panicked

def contentKeyId (key : ContentKey) : Except (Halt String) ContentId :=
  (kernel.contentId key.datum).mapError .failure

end Keys

/-- The ledger adapter: the kernel's cassette table from content ids to handles, the replies beside
it in the order of their recording, and the sequence that hands out the handles. -/
structure EffectLedgerCassette (Reply : Type) where
  ledger : SortedMap ContentId Nat
  entries : List (ContentKey × Reply)
  handles : Nat

namespace EffectLedgerCassette
variable {Mode Reply : Type} (kernel : KernelApi Mode)

def withLedger (ledger : SortedMap ContentId Nat) : EffectLedgerCassette Reply := ⟨ledger, [], 1⟩

def new : EffectLedgerCassette Reply := withLedger ∅

def cassetteResult (self : EffectLedgerCassette Reply) (key : ContentKey) :
    Except (Halt String) (Option Nat) := do
  let keyId ← contentKeyId kernel key
  return self.ledger.get? keyId

/-- Appends a result. A content id that has one already is left as it is, and the reply is
dropped. -/
def appendEvalResult (self : EffectLedgerCassette Reply) (key : ContentKey) (reply : Reply) :
    Except (Halt String) (EffectLedgerCassette Reply) := do
  if (← self.cassetteResult kernel key).isSome then
    return self
  let keyId ← contentKeyId kernel key
  return { ledger := self.ledger.insert keyId self.handles
           entries := self.entries ++ [(key, reply)], handles := self.handles + 1 }

def replayEvalResults (self : EffectLedgerCassette Reply) : List (ContentKey × Reply) :=
  self.entries

end EffectLedgerCassette

/-- The cache of a cassette. The ledger below it is passed along, since cassettes share it. -/
abbrev Cache (Reply : Type) := SortedMap ContentKey Reply

namespace EvalCassette
variable {Mode Reply : Type} (kernel : KernelApi Mode)

def new : Cache Reply := ∅

/-- The replayed results, each inserted over what came before it. -/
def fromLedger (ledger : EffectLedgerCassette Reply) : Cache Reply :=
  SortedMap.ofList ledger.replayEvalResults

def get (cache : Cache Reply) (key : ContentKey) : Option Reply := cache.get? key

/-- Records a reply, in the ledger first. -/
def record (ledger : EffectLedgerCassette Reply) (cache : Cache Reply) (key : ContentKey)
    (reply : Reply) : Except (Halt String) (EffectLedgerCassette Reply × Cache Reply) := do
  if cache.contains key then
    return (ledger, cache)
  let ledger ← ledger.appendEvalResult kernel key reply
  return (ledger, cache.insert key reply)

end EvalCassette

/-! ## What one record does -/

section Spec
variable {Mode Reply : Type} {kernel : KernelApi Mode} {ledger ledger' : EffectLedgerCassette Reply}
  {cache cache' : Cache Reply} {key : ContentKey} {reply : Reply}

theorem EffectLedgerCassette.appendEvalResult_cases
    (h : ledger.appendEvalResult kernel key reply = .ok ledger') :
    ∃ id, contentKeyId kernel key = .ok id ∧
      ((∃ handle, ledger.ledger.get? id = some handle) ∧ ledger' = ledger ∨
        ledger.ledger.get? id = none ∧
          ledger' = ⟨ledger.ledger.insert id ledger.handles, ledger.entries ++ [(key, reply)],
            ledger.handles + 1⟩) := by
  simp only [appendEvalResult, cassetteResult, bind_assoc, pure_bind] at h
  obtain ⟨id, hid, h⟩ := Except.bind_eq_ok_iff.mp h
  refine ⟨id, hid, ?_⟩
  cases hget : ledger.ledger.get? id with
  | some handle =>
    rw [hget] at h
    cases h
    exact .inl ⟨⟨handle, rfl⟩, rfl⟩
  | none =>
    rw [hget] at h
    obtain ⟨id', hid', h⟩ := Except.bind_eq_ok_iff.mp h
    rw [hid] at hid'
    cases hid'
    cases h
    exact .inr ⟨rfl, rfl⟩

theorem EffectLedgerCassette.appendEvalResult_isOk {id : ContentId}
    (hid : contentKeyId kernel key = .ok id) :
    ∃ ledger', ledger.appendEvalResult kernel key reply = .ok ledger' := by
  simp only [appendEvalResult, cassetteResult, pure_bind, hid, Except.ok_bind]
  cases ledger.ledger.get? id with
  | some handle => exact ⟨_, rfl⟩
  | none => exact ⟨_, rfl⟩

theorem EvalCassette.record_held (h : cache.get? key = some r) :
    record kernel ledger cache key reply = .ok (ledger, cache) := by
  have hc : cache.contains key = true := SortedMap.contains_iff.mpr ⟨r, h⟩
  simp [record, hc]
  rfl

theorem EvalCassette.record_new (h : cache.get? key = none) :
    record kernel ledger cache key reply =
      (ledger.appendEvalResult kernel key reply).map (·, cache.insert key reply) := by
  have hc : cache.contains key = false := by simp [SortedMap.contains, h]
  simp only [record, hc]
  cases ledger.appendEvalResult kernel key reply <;> rfl

/-- A recorded key is cached, with the reply that came first. -/
theorem EvalCassette.record_cases
    (h : record kernel ledger cache key reply = .ok (ledger', cache')) :
    (∃ r, cache.get? key = some r) ∧ ledger' = ledger ∧ cache' = cache ∨
      cache.get? key = none ∧ ledger.appendEvalResult kernel key reply = .ok ledger' ∧
        cache' = cache.insert key reply := by
  cases hget : cache.get? key with
  | some r =>
    rw [record_held hget] at h
    cases h
    exact .inl ⟨⟨r, rfl⟩, rfl, rfl⟩
  | none =>
    rw [record_new hget] at h
    cases ha : ledger.appendEvalResult kernel key reply with
    | error e =>
      rw [ha] at h
      cases h
    | ok l =>
      rw [ha] at h
      cases h
      exact .inr ⟨rfl, rfl, rfl⟩

end Spec

/-! ## Cassettes over one ledger -/

/-- A ledger and the cassettes that were created over it. -/
structure Shared (Reply : Type) where
  ledger : EffectLedgerCassette Reply
  cassettes : List (Cache Reply)

/-- A call on the shared ledger or on one of its cassettes, which go by their order of creation. -/
inductive Call (Reply : Type) where
  | new
  | fromLedger
  | record (cassette : Nat) (key : ContentKey) (reply : Reply)

namespace Shared
variable {Mode Reply : Type} (kernel : KernelApi Mode)

def start (table : SortedMap ContentId Nat) : Shared Reply := ⟨.withLedger table, []⟩

/-- The state after a call. A record that fails, or on a cassette that does not exist, changes
nothing. -/
def step (s : Shared Reply) : Call Reply → Shared Reply
  | .new => { s with cassettes := s.cassettes ++ [EvalCassette.new] }
  | .fromLedger => { s with cassettes := s.cassettes ++ [EvalCassette.fromLedger s.ledger] }
  | .record cassette key reply =>
    match s.cassettes[cassette]? with
    | none => s
    | some cache =>
      match EvalCassette.record kernel s.ledger cache key reply with
      | .ok (ledger, cache) => ⟨ledger, s.cassettes.set cassette cache⟩
      | .error _ => s

def run (s : Shared Reply) (calls : List (Call Reply)) : Shared Reply := calls.foldl (step kernel) s

/-- What a cassette answers. -/
def get (s : Shared Reply) (cassette : Nat) (key : ContentKey) : Option Reply :=
  s.cassettes[cassette]?.bind (EvalCassette.get · key)

/-- What a fresh replay of the ledger answers. -/
def replayed (s : Shared Reply) (key : ContentKey) : Option Reply :=
  EvalCassette.get (EvalCassette.fromLedger s.ledger) key

/-- Every answer of a cassette is the answer of a fresh replay. -/
def Agrees (s : Shared Reply) : Prop :=
  ∀ cassette key reply, s.get cassette key = some reply → s.replayed key = some reply

/-- Every answer of a cassette in `s` is the answer of the same cassette and of a fresh replay in
the later state `t`. -/
def Lasts (s t : Shared Reply) : Prop :=
  ∀ cassette key reply, s.get cassette key = some reply →
    t.get cassette key = some reply ∧ t.replayed key = some reply

/-- The call records a reply that the ledger drops: the cassette does not hold the key, the table
has a result for its content id, and the ledger has no entry of that key with that reply. -/
def Dropped (s : Shared Reply) : Call Reply → Prop
  | .record cassette key reply => ∃ cache id handle, s.cassettes[cassette]? = some cache ∧
      cache.get? key = none ∧ contentKeyId kernel key = .ok id ∧
      s.ledger.ledger.get? id = some handle ∧ (key, reply) ∉ s.ledger.entries
  | _ => False

/-- Every key of an entry has a result in the kernel's table, and no key has two entries. -/
structure Tabled (s : Shared Reply) : Prop where
  result : ∀ e ∈ s.ledger.entries, ∃ id handle,
    contentKeyId kernel e.1 = .ok id ∧ s.ledger.ledger.get? id = some handle
  distinct : (s.ledger.entries.map (·.1)).Nodup

variable {kernel : KernelApi Mode} {s t : Shared Reply}

theorem lasts_refl (h : s.Agrees) : Lasts s s := fun c k r hg => ⟨hg, h c k r hg⟩

theorem Lasts.trans (h : Lasts s t) (h' : Lasts t u) : Lasts s u := fun c k r hg =>
  h' c k r (h c k r hg).1

theorem get_eq_some_iff :
    s.get c key = some r ↔ ∃ cache, s.cassettes[c]? = some cache ∧ cache.get? key = some r :=
  Option.bind_eq_some_iff

/-! ### One call -/

theorem set_of_getElem? {l : List α} (h : l[i]? = some a) : l.set i a = l := by
  obtain ⟨hlt, rfl⟩ := List.getElem?_eq_some_iff.mp h
  exact List.set_getElem_self hlt

/-- What a call does to the state: it adds a cassette, changes nothing, or lets one cassette that
does not hold the key record it. -/
theorem step_cases (s : Shared Reply) (call : Call Reply) :
    call = .new ∧ step kernel s call = { s with cassettes := s.cassettes ++ [∅] } ∨
    call = .fromLedger ∧ step kernel s call =
      { s with cassettes := s.cassettes ++ [EvalCassette.fromLedger s.ledger] } ∨
    step kernel s call = s ∨
    ∃ c key reply cache ledger', call = .record c key reply ∧ s.cassettes[c]? = some cache ∧
      cache.get? key = none ∧ s.ledger.appendEvalResult kernel key reply = .ok ledger' ∧
      step kernel s call = ⟨ledger', s.cassettes.set c (cache.insert key reply)⟩ := by
  match call with
  | .new => exact .inl ⟨rfl, rfl⟩
  | .fromLedger => exact .inr (.inl ⟨rfl, rfl⟩)
  | .record c key reply =>
    refine .inr (.inr ?_)
    cases hc : s.cassettes[c]? with
    | none => exact .inl (by simp only [step, hc])
    | some cache =>
      cases hr : EvalCassette.record kernel s.ledger cache key reply with
      | error e => exact .inl (by simp only [step, hc, hr])
      | ok out =>
        obtain ⟨ledger', cache'⟩ := out
        have hs : step kernel s (.record c key reply) = ⟨ledger', s.cassettes.set c cache'⟩ := by
          simp only [step, hc, hr]
        rcases EvalCassette.record_cases hr with ⟨-, rfl, rfl⟩ | ⟨hnone, ha, rfl⟩
        · refine .inl ?_
          rw [hs, set_of_getElem? hc]
        · exact .inr ⟨c, key, reply, cache, ledger', rfl, hc, hnone, ha, hs⟩

/-- What the cassettes answer after one of them has recorded a key it did not hold. -/
theorem get_set (hc : s.cassettes[c]? = some cache) (ledger' : EffectLedgerCassette Reply) :
    (⟨ledger', s.cassettes.set c (cache.insert key reply)⟩ : Shared Reply).get c' key' =
      if c' = c ∧ key' = key then some reply else s.get c' key' := by
  have hlt : c < s.cassettes.length := (List.getElem?_eq_some_iff.mp hc).1
  simp only [get, EvalCassette.get, List.getElem?_set]
  by_cases h : c' = c
  · subst h
    by_cases hk : key' = key
    · simp [hlt, hk]
    · simp only [↓reduceIte, hlt, hc, Option.bind_some, SortedMap.get?_insert_ne _ _ hk, hk,
        and_false]
  · simp [h, Ne.symm h]

variable {cassettes : List (Cache Reply)}

theorem get_append {cache : Cache Reply} (h : s.get c key = some r) :
    ({ s with cassettes := s.cassettes ++ [cache] } : Shared Reply).get c key = some r := by
  obtain ⟨cache', hc, hr⟩ := get_eq_some_iff.mp h
  refine get_eq_some_iff.mpr ⟨cache', ?_, hr⟩
  rw [List.getElem?_append_left (List.getElem?_eq_some_iff.mp hc).1, hc]

theorem get_of_append {cache : Cache Reply}
    (h : ({ s with cassettes := s.cassettes ++ [cache] } : Shared Reply).get c key = some r) :
    s.get c key = some r ∨ cache.get? key = some r := by
  obtain ⟨cache', hc, hr⟩ := get_eq_some_iff.mp h
  rw [List.getElem?_append] at hc
  split at hc
  · exact .inl (get_eq_some_iff.mpr ⟨cache', hc, hr⟩)
  · rw [List.getElem?_singleton] at hc
    split at hc
    · cases hc
      exact .inr hr
    · cases hc

theorem replayed_eq_some (h : s.replayed key = some r) : (key, r) ∈ s.ledger.entries :=
  (Keyed.get?_ofList_iff.mp h).mem

theorem replayed_of_mem (h : s.Tabled kernel) (hmem : (key, r) ∈ s.ledger.entries) :
    s.replayed key = some r := by
  obtain ⟨w, hlatest⟩ := Keyed.exists_latest (p := (· = key)) hmem rfl
  have hw : w = (key, r) := by
    have hinj := List.inj_on_of_nodup_map h.distinct
    exact hinj hlatest.mem hmem hlatest.holds
  exact Keyed.get?_ofList_iff.mpr (hw ▸ hlatest)

theorem Tabled.not_mem (h : s.Tabled kernel) (hid : contentKeyId kernel key = .ok id')
    (hnone : s.ledger.ledger.get? id' = none) : key ∉ s.ledger.entries.map (·.1) := by
  intro hmem
  obtain ⟨e, he, rfl⟩ := List.mem_map.mp hmem
  obtain ⟨id, handle, hid', hget⟩ := h.result e he
  rw [hid] at hid'
  cases hid'
  rw [hnone] at hget
  cases hget

theorem Tabled.append (h : s.Tabled kernel)
    (ha : s.ledger.appendEvalResult kernel key reply = .ok ledger') :
    Tabled kernel ⟨ledger', cassettes⟩ := by
  obtain ⟨id, hid, ⟨-, rfl⟩ | ⟨hnone, rfl⟩⟩ := EffectLedgerCassette.appendEvalResult_cases ha
  · exact ⟨h.result, h.distinct⟩
  · constructor
    · intro e he
      rcases List.mem_append.mp he with he | he
      · obtain ⟨id', handle, hid', hget⟩ := h.result e he
        have hne : id' ≠ id := by
          rintro rfl
          rw [hnone] at hget
          cases hget
        exact ⟨id', handle, hid', by rw [SortedMap.get?_insert_ne _ _ hne, hget]⟩
      · cases List.mem_singleton.mp he
        exact ⟨id, _, hid, SortedMap.get?_insert_self _ _ _⟩
    · show ((s.ledger.entries ++ [(key, reply)]).map (·.1)).Nodup
      rw [List.map_append, List.nodup_append]
      refine ⟨h.distinct, List.nodup_singleton _, ?_⟩
      rintro key' hmem _ hk rfl
      cases List.mem_singleton.mp hk
      exact h.not_mem hid hnone hmem

/-- An append keeps what the ledger replays: a key with an entry has a result in the table, so no
second reply is stored for it. -/
theorem Tabled.replayed_append (h : s.Tabled kernel)
    (ha : s.ledger.appendEvalResult kernel key reply = .ok ledger')
    (hr : s.replayed key' = some r) :
    (⟨ledger', cassettes⟩ : Shared Reply).replayed key' = some r := by
  have hmem := replayed_eq_some hr
  refine replayed_of_mem (h.append ha) ?_
  obtain ⟨id, -, ⟨-, rfl⟩ | ⟨-, rfl⟩⟩ := EffectLedgerCassette.appendEvalResult_cases ha
  · exact hmem
  · exact List.mem_append_left _ hmem

/-- The recorded reply is what the ledger replays, unless the ledger dropped it. -/
theorem Tabled.replayed_recorded (h : s.Tabled kernel) (hc : s.cassettes[c]? = some cache)
    (hnone : cache.get? key = none)
    (ha : s.ledger.appendEvalResult kernel key reply = .ok ledger')
    (hd : ¬s.Dropped kernel (.record c key reply)) :
    (⟨ledger', cassettes⟩ : Shared Reply).replayed key = some reply := by
  refine replayed_of_mem (h.append ha) ?_
  obtain ⟨id, hid, ⟨⟨handle, hget⟩, rfl⟩ | ⟨-, rfl⟩⟩ :=
    EffectLedgerCassette.appendEvalResult_cases ha
  · by_contra hmem
    exact hd ⟨cache, id, handle, hc, hnone, hid, hget, hmem⟩
  · exact List.mem_append_right _ (List.mem_singleton_self _)

theorem Tabled.step (h : s.Tabled kernel) (call : Call Reply) :
    (step kernel s call).Tabled kernel := by
  rcases @step_cases _ _ kernel s call with
    ⟨-, hs⟩ | ⟨-, hs⟩ | hs | ⟨c, key, reply, cache, ledger', -, -, -, ha, hs⟩
  · rw [hs]; exact ⟨h.result, h.distinct⟩
  · rw [hs]; exact ⟨h.result, h.distinct⟩
  · rw [hs]; exact h
  · rw [hs]; exact h.append ha

/-- A call that drops no reply keeps every answer, of the cassettes and of a fresh replay. -/
theorem Agrees.lasts_step (h : s.Agrees) (ht : s.Tabled kernel) (call : Call Reply) :
    Lasts s (step kernel s call) := by
  intro c' key' r hg
  rcases @step_cases _ _ kernel s call with
    ⟨-, hs⟩ | ⟨-, hs⟩ | hs | ⟨c, key, reply, cache, ledger', -, hc, hnone, ha, hs⟩
  · rw [hs]; exact ⟨get_append hg, h _ _ _ hg⟩
  · rw [hs]; exact ⟨get_append hg, h _ _ _ hg⟩
  · rw [hs]; exact ⟨hg, h _ _ _ hg⟩
  · rw [hs]
    refine ⟨?_, ht.replayed_append ha (h _ _ _ hg)⟩
    rw [get_set hc, if_neg, hg]
    rintro ⟨rfl, rfl⟩
    obtain ⟨cache', hc', hr⟩ := get_eq_some_iff.mp hg
    rw [hc] at hc'
    cases hc'
    rw [hnone] at hr
    cases hr

theorem Agrees.step (h : s.Agrees) (ht : s.Tabled kernel) (hd : ¬s.Dropped kernel call) :
    (step kernel s call).Agrees := by
  intro c' key' r hg
  rcases @step_cases _ _ kernel s call with
    ⟨-, hs⟩ | ⟨-, hs⟩ | hs | ⟨c, key, reply, cache, ledger', rfl, hc, hnone, ha, hs⟩
  · rw [hs] at hg ⊢
    rcases get_of_append hg with hg | hg
    · exact h _ _ _ hg
    · cases hg
  · rw [hs] at hg ⊢
    rcases get_of_append hg with hg | hg
    · exact h _ _ _ hg
    · exact hg
  · rw [hs] at hg ⊢
    exact h _ _ _ hg
  · rw [hs] at hg ⊢
    rw [get_set hc] at hg
    split at hg
    · rename_i hsame
      cases hg
      rw [hsame.2]
      exact ht.replayed_recorded hc hnone ha hd
    · exact ht.replayed_append ha (h _ _ _ hg)

/-- A dropped reply is in the cassette and not in the ledger. -/
theorem Dropped.not_agrees (h : s.Dropped kernel call) : ¬(step kernel s call).Agrees := by
  match call, h with
  | .record c key reply, ⟨cache, id, handle, hc, hnone, hid, hget, hne⟩ =>
    have ha : s.ledger.appendEvalResult kernel key reply = .ok s.ledger := by
      simp only [EffectLedgerCassette.appendEvalResult, EffectLedgerCassette.cassetteResult,
        pure_bind, hid, Except.ok_bind, hget]
      rfl
    have hs : step kernel s (.record c key reply) =
        ⟨s.ledger, s.cassettes.set c (cache.insert key reply)⟩ := by
      simp only [Shared.step, hc, EvalCassette.record_new hnone, ha]
      rfl
    intro hagrees
    rw [hs] at hagrees
    have hreplayed := hagrees c key reply (by rw [get_set hc, if_pos ⟨rfl, rfl⟩])
    exact hne (replayed_eq_some hreplayed)

/-! ### Runs -/

theorem run_append (s : Shared Reply) (calls calls' : List (Call Reply)) :
    run kernel s (calls ++ calls') = run kernel (run kernel s calls) calls' := List.foldl_append

/-- A run along which the cassettes agree with their ledger: in every state it passes through every
answer of a cassette is that of a fresh replay, and stays the answer of both until the end. -/
def Faithful (kernel : KernelApi Mode) (s : Shared Reply) (calls : List (Call Reply)) : Prop :=
  ∀ earlier later, calls = earlier ++ later →
    (run kernel s earlier).Agrees ∧ Lasts (run kernel s earlier) (run kernel s calls)

/-- No call of the run records a reply that the ledger drops. -/
def NoneDropped (kernel : KernelApi Mode) (s : Shared Reply) (calls : List (Call Reply)) : Prop :=
  ∀ earlier call later, calls = earlier ++ call :: later →
    ¬(run kernel s earlier).Dropped kernel call

/-- The state a run without dropped replies reaches. -/
theorem NoneDropped.reaches {calls : List (Call Reply)} (h : NoneDropped kernel s calls)
    (ha : s.Agrees) (ht : s.Tabled kernel) :
    (run kernel s calls).Agrees ∧ (run kernel s calls).Tabled kernel ∧
      Lasts s (run kernel s calls) := by
  induction calls generalizing s with
  | nil => exact ⟨ha, ht, lasts_refl ha⟩
  | cons call calls ih =>
    have hd : ¬s.Dropped kernel call := h [] call calls rfl
    have hrest : NoneDropped kernel (step kernel s call) calls := fun earlier call' later he =>
      h (call :: earlier) call' later (by rw [he]; rfl)
    obtain ⟨hagrees, htabled, hlasts⟩ := ih hrest (ha.step ht hd) (ht.step call)
    exact ⟨hagrees, htabled, (ha.lasts_step ht call).trans hlasts⟩

theorem NoneDropped.left (h : NoneDropped kernel s (earlier ++ later)) :
    NoneDropped kernel s earlier := fun e call l he =>
  h e call (l ++ later) (by rw [he, List.append_assoc, List.cons_append])

theorem NoneDropped.right (h : NoneDropped kernel s (earlier ++ later)) :
    NoneDropped kernel (run kernel s earlier) later := by
  intro e call l he
  rw [← run_append]
  exact h (earlier ++ e) call l (by rw [he, List.append_assoc])

/-- Cassettes never contradict the ledger they share, through every run, exactly when no call
records a reply that the ledger drops. -/
theorem faithful_iff_noneDropped (table : SortedMap ContentId Nat) (calls : List (Call Reply)) :
    Faithful kernel (start table) calls ↔ NoneDropped kernel (start table) calls := by
  constructor
  · rintro h earlier call later rfl hd
    have hreached := (h (earlier ++ [call]) later (by simp)).1
    rw [run_append] at hreached
    exact hd.not_agrees hreached
  · rintro h earlier later rfl
    have ha : (start table : Shared Reply).Agrees := fun c k r hg => by cases hg
    have ht : (start table : Shared Reply).Tabled kernel := ⟨nofun, List.nodup_nil⟩
    obtain ⟨hagrees, htabled, -⟩ := h.left.reaches ha ht
    refine ⟨hagrees, ?_⟩
    rw [run_append]
    exact (h.right.reaches hagrees htabled).2.2

end Shared

namespace Sample

/-- A kernel with one content id. The runs below record a single key. -/
def kernel : KernelApi Unit where
  contentId _ := .ok (.ofByte (.qualified "core" "sha256") 7)
  canonicalKey _ := .atom "nil"

def key : ContentKey := ⟨.ofByte (.qualified "core" "sha256") 1⟩

/-- Two cassettes over one fresh ledger, each of which records its own reply. -/
def contradicting : List (Call String) := [.new, .new, .record 0 key "first", .record 1 key "second"]

end Sample

/-- Two cassettes over one ledger, one key: the ledger replays what the first recorded, and the
second answers with its own. -/
theorem second_cassette_contradicts_ledger :
    (Shared.run Sample.kernel (Shared.start ∅) Sample.contradicting).get 1 Sample.key =
      some "second" ∧
    (Shared.run Sample.kernel (Shared.start ∅) Sample.contradicting).replayed Sample.key =
      some "first" ∧
    ¬Shared.Faithful Sample.kernel (Shared.start ∅) Sample.contradicting := by
  have hsecond : (Shared.run Sample.kernel (Shared.start ∅) Sample.contradicting).get 1 Sample.key =
      some "second" := by decide +kernel
  have hfirst : (Shared.run Sample.kernel (Shared.start ∅) Sample.contradicting).replayed Sample.key =
      some "first" := by decide +kernel
  refine ⟨hsecond, hfirst, fun h => ?_⟩
  have hagrees := (h Sample.contradicting [] (List.append_nil _).symm).1 1 Sample.key _ hsecond
  rw [hfirst] at hagrees
  exact absurd hagrees (by decide)

end SimAgentNet.StreamFabric
