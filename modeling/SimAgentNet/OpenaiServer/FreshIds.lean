import SimAgentNet.OpenaiServer.Writes
import Mathlib.Logic.Relation

/-! # The ids of the durable objects

Each request counts its ids up from its own reading of the clock. The ids of one kind that a
request may mint are a range of counter values; as long as the ranges of the requests of a run do
not meet, no object is created under an id that is in use. -/

namespace SimAgentNet.OpenaiServer

open Effect (Triple)
open Relation (ReflTransGen)
open GatewayIdGenerator (format format_injective)

variable {Mode Cache Ids : Type}

/-- The kinds of objects that are stored under an id of their own. -/
inductive Kind where
  | file
  | batch
  | thread
  | vectorStore
  | response
deriving DecidableEq

def Kind.stem : Kind → String
  | .file => "file"
  | .batch => "batch"
  | .thread => "thread"
  | .vectorStore => "vs"
  | .response => "resp"

/-- Whether an id of a kind is in use; a file is its record or its bytes. -/
def MemoryGatewayStore.Has (s : MemoryGatewayStore Mode) (id : String) : Kind → Prop
  | .file => (s.file id).isSome ∨ (s.fileBytesOf id).isSome
  | .batch => (s.batch id).isSome
  | .thread => (s.thread id).isSome
  | .vectorStore => (s.vectorStore id).isSome
  | .response => (s.responseObject id).isSome

/-- The counter values from which a request mints its ids, for each kind as many as it may need,
and the key its responses are stored for. -/
structure Reservation where
  start : Nat
  width : Kind → Nat
  owner : Option String

namespace Reservation

def Covers (v : Reservation) (k : Kind) (n : Nat) : Prop := v.start ≤ n ∧ n < v.start + v.width k

def Mints (v : Reservation) (k : Kind) (id : String) : Prop := ∃ n, v.Covers k n ∧ id = format k.stem n

/-- Two requests can not mint the same id. -/
def Apart (v v' : Reservation) : Prop := ∀ k n, ¬(v.Covers k n ∧ v'.Covers k n)

theorem Apart.not_mints {v v' : Reservation} (h : v.Apart v') {k : Kind} {id : String}
    (hid : v.Mints k id) : ¬v'.Mints k id := by
  rintro ⟨m, hm, he⟩
  obtain ⟨n, hn, rfl⟩ := hid
  have hnm := format_injective _ he
  exact h k n ⟨hn, hnm ▸ hm⟩

end Reservation

/-! ## Creating objects -/

/-- One change of the durable objects by a request that started from `base`. An object is created
under an id that is not in use. What is written again was created by the same request, except that
a batch may be cancelled. -/
inductive Creates (v : Reservation) (base : MemoryGatewayStore Mode) :
    MemoryGatewayStore Mode → MemoryGatewayStore Mode → Prop
  | record (h : SameObjects s s') : Creates v base s s'
  | file (file : GatewayFile) (bytes : List UInt8) (hid : v.Mints .file file.id)
      (hnew : ¬s.Has file.id .file) : Creates v base s (s.putFile file bytes)
  | batch (batch : GatewayBatch) (hid : v.Mints .batch batch.id) (hnew : ¬s.Has batch.id .batch) :
      Creates v base s (s.putBatch batch)
  | thread (thread : GatewayThread) (hid : v.Mints .thread thread.id)
      (hnew : ¬s.Has thread.id .thread) : Creates v base s (s.putThread thread)
  | vectorStore (vectorStore : GatewayVectorStore) (hid : v.Mints .vectorStore vectorStore.id)
      (hnew : ¬s.Has vectorStore.id .vectorStore) : Creates v base s (s.putVectorStore vectorStore)
  | response (record : StoredGatewayResponse) (hid : v.Mints .response record.responseId)
      (hnew : ¬s.Has record.responseId .response) (howner : record.ownerKeyId = none) :
      Creates v base s (s.putResponseObject record)
  | completeBatch (batch : GatewayBatch) (hid : v.Mints .batch batch.id)
      (hbase : ¬base.Has batch.id .batch) : Creates v base s (s.putBatch batch)
  | adoptResponse (record : StoredGatewayResponse) (hid : v.Mints .response record.responseId)
      (hbase : ¬base.Has record.responseId .response) (howner : record.ownerKeyId = v.owner) :
      Creates v base s (s.putResponseObject record)
  | cancelBatch (batch batch' : GatewayBatch) (hbatch : s.batch batch.id = some batch)
      (hcancel : batch' = batch ∨ ∃ ms, batch' = batch.cancel ms) :
      Creates v base s (s.putBatch batch')

/-- Batches and responses are stored under their own ids. -/
structure Keyed (s : MemoryGatewayStore Mode) : Prop where
  batch : ∀ {id batch}, s.batch id = some batch → batch.id = id
  response : ∀ {id record}, s.responseObject id = some record → record.responseId = id

/-- Later states of a batch that has been cancelled, once or again. -/
def Cancels : GatewayBatch → GatewayBatch → Prop :=
  ReflTransGen fun batch batch' => ∃ ms, batch' = batch.cancel ms

/-- Every object of `s` is in `s'`, with its bytes; only a batch may have been cancelled. -/
structure KeepsObjects (s s' : MemoryGatewayStore Mode) : Prop where
  file : ∀ {id v}, s.file id = some v → s'.file id = some v
  fileBytes : ∀ {id v}, s.fileBytesOf id = some v → s'.fileBytesOf id = some v
  batch : ∀ {id v}, s.batch id = some v → ∃ v', s'.batch id = some v' ∧ Cancels v v'
  thread : ∀ {id v}, s.thread id = some v → s'.thread id = some v
  vectorStore : ∀ {id v}, s.vectorStore id = some v → s'.vectorStore id = some v
  response : ∀ {id v}, s.responseObject id = some v → s'.responseObject id = some v

section
variable {s s' base : MemoryGatewayStore Mode} {v : Reservation} {k : Kind} {id : String}

theorem SameObjects.has_iff (h : SameObjects s s') : s'.Has id k ↔ s.Has id k := by
  cases k <;>
    simp only [MemoryGatewayStore.Has, MemoryGatewayStore.file, MemoryGatewayStore.fileBytesOf,
      MemoryGatewayStore.batch, MemoryGatewayStore.thread, MemoryGatewayStore.vectorStore,
      MemoryGatewayStore.responseObject, h.files, h.fileBytes, h.batches, h.threads,
      h.vectorStores, h.responseObjects]

/-- An insertion into a map adds its own key. -/
theorem isSome_get?_insert {α β : Type} [LinearOrder α] {m : SortedMap α β} {k k' : α} {v : β} :
    ((m.insert k v).get? k').isSome ↔ (m.get? k').isSome ∨ k' = k := by
  rw [SortedMap.get?_insert]
  split
  · simp [*]
  · simp [*]

namespace MemoryGatewayStore

theorem has_putFile (file : GatewayFile) (bytes : List UInt8) :
    (s.putFile file bytes).Has id k ↔ s.Has id k ∨ k = .file ∧ id = file.id := by
  cases k <;> simp only [Has, putFile, MemoryGatewayStore.file, fileBytesOf, isSome_get?_insert,
    reduceCtorEq, false_and, or_false, true_and]
  · tauto
  · rfl
  · rfl
  · rfl
  · rfl

theorem has_putBatch (batch : GatewayBatch) :
    (s.putBatch batch).Has id k ↔ s.Has id k ∨ k = .batch ∧ id = batch.id := by
  cases k <;> simp only [Has, putBatch, MemoryGatewayStore.batch, isSome_get?_insert, reduceCtorEq,
    false_and, or_false, true_and] <;> rfl

theorem has_putThread (thread : GatewayThread) :
    (s.putThread thread).Has id k ↔ s.Has id k ∨ k = .thread ∧ id = thread.id := by
  cases k <;> simp only [Has, putThread, MemoryGatewayStore.thread, isSome_get?_insert,
    reduceCtorEq, false_and, or_false, true_and] <;> rfl

theorem has_putVectorStore (vectorStore : GatewayVectorStore) :
    (s.putVectorStore vectorStore).Has id k ↔
      s.Has id k ∨ k = .vectorStore ∧ id = vectorStore.id := by
  cases k <;> simp only [Has, putVectorStore, MemoryGatewayStore.vectorStore, isSome_get?_insert,
    reduceCtorEq, false_and, or_false, true_and] <;> rfl

theorem has_putResponseObject (record : StoredGatewayResponse) :
    (s.putResponseObject record).Has id k ↔
      s.Has id k ∨ k = .response ∧ id = record.responseId := by
  cases k <;> simp only [Has, putResponseObject, MemoryGatewayStore.responseObject,
    isSome_get?_insert, reduceCtorEq, false_and, or_false, true_and] <;> rfl

end MemoryGatewayStore

/-- What is in use after a change was in use or is one of the request's ids. -/
theorem Creates.has (h : Creates v base s s') (hid : s'.Has id k) : s.Has id k ∨ v.Mints k id := by
  cases h with
  | record h => exact .inl (h.has_iff.mp hid)
  | file file bytes hmint _ =>
    obtain h | ⟨rfl, rfl⟩ := (MemoryGatewayStore.has_putFile _ _).mp hid
    · exact .inl h
    · exact .inr hmint
  | batch batch hmint _ | completeBatch batch hmint _ =>
    obtain h | ⟨rfl, rfl⟩ := (MemoryGatewayStore.has_putBatch _).mp hid
    · exact .inl h
    · exact .inr hmint
  | thread thread hmint _ =>
    obtain h | ⟨rfl, rfl⟩ := (MemoryGatewayStore.has_putThread _).mp hid
    · exact .inl h
    · exact .inr hmint
  | vectorStore vectorStore hmint _ =>
    obtain h | ⟨rfl, rfl⟩ := (MemoryGatewayStore.has_putVectorStore _).mp hid
    · exact .inl h
    · exact .inr hmint
  | response record hmint _ _ | adoptResponse record hmint _ _ =>
    obtain h | ⟨rfl, rfl⟩ := (MemoryGatewayStore.has_putResponseObject _).mp hid
    · exact .inl h
    · exact .inr hmint
  | cancelBatch batch batch' hbatch hcancel =>
    obtain h | ⟨rfl, rfl⟩ := (MemoryGatewayStore.has_putBatch _).mp hid
    · exact .inl h
    · obtain rfl | ⟨ms, rfl⟩ := hcancel
      · exact .inl (Option.isSome_of_eq_some hbatch)
      · exact .inl (Option.isSome_of_eq_some hbatch)

theorem Creates.keyed (h : Creates v base s s') (hs : Keyed s) : Keyed s' := by
  have hbatch (batch : GatewayBatch) : Keyed (s.putBatch batch) :=
    ⟨fun h => (get?_insert_inv h).elim (fun ⟨hk, hv⟩ => hk ▸ hv ▸ rfl) hs.batch, hs.response⟩
  have hresponse (record : StoredGatewayResponse) : Keyed (s.putResponseObject record) :=
    ⟨hs.batch, fun h => (get?_insert_inv h).elim (fun ⟨hk, hv⟩ => hk ▸ hv ▸ rfl) hs.response⟩
  cases h with
  | record h =>
    constructor
    · intro id batch hb
      rw [MemoryGatewayStore.batch, h.batches] at hb
      exact hs.batch hb
    · intro id record hr
      rw [MemoryGatewayStore.responseObject, h.responseObjects] at hr
      exact hs.response hr
  | file file bytes => exact ⟨hs.batch, hs.response⟩
  | thread thread => exact ⟨hs.batch, hs.response⟩
  | vectorStore vectorStore => exact ⟨hs.batch, hs.response⟩
  | batch batch | completeBatch batch => exact hbatch batch
  | response record | adoptResponse record => exact hresponse record
  | cancelBatch batch batch' => exact hbatch batch'

/-- An insertion under an unused id keeps the entries of a map. -/
theorem get?_insert_of_unused {α β : Type} [LinearOrder α] {m : SortedMap α β} {k k' : α}
    {v v' : β} (h : m.get? k' = some v') (hk : ¬(m.get? k).isSome) :
    (m.insert k v).get? k' = some v' := by
  refine get?_insert_of_agree h fun he => absurd ?_ hk
  rw [← he]
  exact Option.isSome_of_eq_some h

theorem KeepsObjects.refl (s : MemoryGatewayStore Mode) : KeepsObjects s s :=
  ⟨id, id, fun h => ⟨_, h, .refl⟩, id, id, id⟩

/-- One change keeps what the request found in the store. -/
theorem Creates.keeps (h : Creates v base s s') (hs : KeepsObjects base s) :
    KeepsObjects base s' := by
  cases h with
  | record h =>
    constructor
    · intro id f hf
      rw [MemoryGatewayStore.file, h.files]
      exact hs.file hf
    · intro id f hf
      rw [MemoryGatewayStore.fileBytesOf, h.fileBytes]
      exact hs.fileBytes hf
    · intro id b hb
      rw [MemoryGatewayStore.batch, h.batches]
      exact hs.batch hb
    · intro id t ht
      rw [MemoryGatewayStore.thread, h.threads]
      exact hs.thread ht
    · intro id t ht
      rw [MemoryGatewayStore.vectorStore, h.vectorStores]
      exact hs.vectorStore ht
    · intro id r hr
      rw [MemoryGatewayStore.responseObject, h.responseObjects]
      exact hs.response hr
  | file file bytes _ hnew =>
    obtain ⟨hfile, hbytes⟩ := not_or.mp hnew
    exact { hs with
      file := fun h => get?_insert_of_unused (hs.file h) hfile
      fileBytes := fun h => get?_insert_of_unused (hs.fileBytes h) hbytes }
  | thread thread _ hnew =>
    exact { hs with thread := fun h => get?_insert_of_unused (hs.thread h) hnew }
  | vectorStore vectorStore _ hnew =>
    exact { hs with vectorStore := fun h => get?_insert_of_unused (hs.vectorStore h) hnew }
  | response record _ hnew _ =>
    exact { hs with response := fun h => get?_insert_of_unused (hs.response h) hnew }
  | batch batch _ hnew =>
    refine { hs with batch := fun h => ?_ }
    obtain ⟨batch', hbatch', hcancels⟩ := hs.batch h
    exact ⟨batch', get?_insert_of_unused hbatch' hnew, hcancels⟩
  | completeBatch batch _ hbase =>
    refine { hs with batch := fun {id b} h => ?_ }
    obtain ⟨batch', hbatch', hcancels⟩ := hs.batch h
    refine ⟨batch', get?_insert_of_agree hbatch' fun he => absurd ?_ hbase, hcancels⟩
    exact he ▸ Option.isSome_of_eq_some h
  | adoptResponse record _ hbase _ =>
    refine { hs with response := fun {id r} h => ?_ }
    refine get?_insert_of_agree (hs.response h) fun he => absurd ?_ hbase
    exact he ▸ Option.isSome_of_eq_some h
  | cancelBatch batch batch' hbatch hcancel =>
    refine { hs with batch := fun {id b} h => ?_ }
    obtain ⟨b', hb', hcancels⟩ := hs.batch h
    have hid : batch'.id = batch.id := by
      obtain rfl | ⟨ms, rfl⟩ := hcancel
      · rfl
      · rfl
    by_cases he : id = batch'.id
    · refine ⟨batch', ?_, ?_⟩
      · rw [he]
        exact SortedMap.get?_insert_self _ _ _
      · rw [he, hid, hbatch] at hb'
        cases hb'
        obtain rfl | hms := hcancel
        · exact hcancels
        · exact hcancels.tail hms
    · refine ⟨b', ?_, hcancels⟩
      rw [MemoryGatewayStore.batch, MemoryGatewayStore.putBatch, SortedMap.get?_insert, if_neg he]
      exact hb'

/-- All changes of one request. -/
abbrev Created (v : Reservation) (base : MemoryGatewayStore Mode) :
    MemoryGatewayStore Mode → MemoryGatewayStore Mode → Prop :=
  ReflTransGen (Creates v base)

theorem Created.has (h : Created v base s s') (hid : s'.Has id k) : s.Has id k ∨ v.Mints k id := by
  induction h with
  | refl => exact .inl hid
  | tail _ hstep ih =>
    obtain hid | hid := hstep.has hid
    · exact ih hid
    · exact .inr hid

theorem Created.keyed (h : Created v base s s') (hs : Keyed s) : Keyed s' := by
  induction h with
  | refl => exact hs
  | tail _ hstep ih => exact hstep.keyed ih

theorem Created.keeps (h : Created v base base s) : KeepsObjects base s := by
  induction h with
  | refl => exact .refl base
  | tail _ hstep ih => exact hstep.keeps ih

end

/-! ## Room for ids -/

/-- A generator has room for `n` further ids of a kind: none of the reserved ids from its counter
on is in use. -/
structure Room (v : Reservation) (k : Kind) (s : MemoryGatewayStore Mode) (g : GatewayIdGenerator)
    (n : Nat) : Prop where
  stem : g.stem = k.stem
  start : v.start ≤ g.next
  fits : g.next + n ≤ v.start + v.width k
  unused : ∀ m, g.next ≤ m → m < v.start + v.width k → ¬s.Has (format k.stem m) k

namespace Room
variable {v : Reservation} {k : Kind} {s s' : MemoryGatewayStore Mode} {g : GatewayIdGenerator}
  {n : Nat}

/-- A generator that starts at the reservation has room for all of it. -/
theorem deterministic (hfree : ∀ id, v.Mints k id → ¬s.Has id k) {start : UInt64}
    (hstart : v.start = start.toNat) :
    Room v k s (.deterministic k.stem start) (v.width k) where
  stem := rfl
  start := hstart.le
  fits := by rw [hstart]; rfl
  unused m hle hlt := hfree _ ⟨m, ⟨hstart.le.trans hle, hlt⟩, rfl⟩

theorem mono (h : Room v k s g n) {m : Nat} (hm : m ≤ n) : Room v k s g m :=
  { h with fits := (Nat.add_le_add_left hm _).trans h.fits }

/-- Room is lost only by objects of the same kind. -/
theorem of_has (h : Room v k s g n) (hs : ∀ id, s'.Has id k → s.Has id k) : Room v k s' g n :=
  { h with unused := fun m hle hlt hid => h.unused m hle hlt (hs _ hid) }

theorem mints (h : Room v k s g (n + 1)) : v.Mints k g.peek := by
  have := h.fits
  exact ⟨g.next, ⟨h.start, by omega⟩, by rw [GatewayIdGenerator.peek, h.stem]⟩

theorem peek_unused (h : Room v k s g (n + 1)) : ¬s.Has g.peek k := by
  have := h.fits
  rw [GatewayIdGenerator.peek, h.stem]
  exact h.unused g.next le_rfl (by omega)

/-- The next id may be put to use. -/
theorem succ (h : Room v k s g (n + 1)) (hs : ∀ id, s'.Has id k → s.Has id k ∨ id = g.peek) :
    Room v k s' g.succ n where
  stem := h.stem
  start := h.start.trans (Nat.le_succ _)
  fits := by
    have := h.fits
    simp only [GatewayIdGenerator.succ]
    omega
  unused m hle hlt hid := by
    have hlt' : g.next < m := hle
    obtain hid | hid := hs _ hid
    · exact h.unused m hlt'.le hlt hid
    · rw [GatewayIdGenerator.peek, h.stem] at hid
      exact hlt'.ne' (format_injective _ hid)

end Room

section
variable {s s' : MemoryGatewayStore Mode} {v : Reservation} {n : Nat}
  {g g' : GatewayIdGenerator} {host : Host Mode} {engine : ResponseEngine Mode Cache}
  {request : GatewayRequest} {reported : Option String}

/-- An execution stores no more than one response, under the next id. -/
theorem Executed.created (h : Executed host engine request g s g' s' reported)
    (base : MemoryGatewayStore Mode) (hroom : Room v .response s g (n + 1)) :
    Created v base s s' ∧ Room v .response s' g' n ∧
      (∀ id, reported = some id → v.Mints .response id) ∧
      ∀ id k, k ≠ .response → (s'.Has id k ↔ s.Has id k) := by
  cases h with
  | refused h =>
    exact ⟨.single (.record h), (hroom.mono (Nat.le_succ n)).of_has fun _ => h.has_iff.mp, nofun,
      fun _ _ _ => h.has_iff⟩
  | minted h hid =>
    refine ⟨.single (.record h), hroom.succ fun _ hid => .inl (h.has_iff.mp hid), ?_,
      fun _ _ _ => h.has_iff⟩
    rintro id rfl
    obtain hid | hid := hid
    · cases hid
    · cases hid
      exact hroom.mints
  | @stored s₁ h record hrecord howner | @unreported s₁ _ _ _ h record hrecord howner _ _ =>
    have hroom₁ : Room v .response s₁ g (n + 1) := hroom.of_has fun _ => h.has_iff.mp
    have hput : Creates v base s₁ (s₁.putResponseObject record) :=
      .response record (hrecord ▸ hroom.mints) (hrecord ▸ hroom₁.peek_unused) howner
    refine ⟨.tail (.single (.record h)) hput, hroom₁.succ fun id hid => ?_, ?_, fun id k hk => ?_⟩
    · obtain hid | ⟨-, hid⟩ := (MemoryGatewayStore.has_putResponseObject record).mp hid
      · exact .inl hid
      · exact .inr (hid.trans hrecord)
    · intro id hid
      cases hid <;> exact hroom.mints
    · rw [MemoryGatewayStore.has_putResponseObject, h.has_iff]
      simp [hk]

end

/-! ## Routes -/

theorem runRoute_spec {host : Host Mode} {ids : Ids} {route : Route Mode Cache Ids GatewayResponse}
    {state : GatewayState Mode Cache} {P I : Ids → MemoryGatewayStore Mode → Prop}
    (h : Triple (fun w => P w.ids w.store) route (fun _ w => I w.ids w.store)
      fun w => I w.ids w.store) (hp : P ids state.store) :
    I (runRoute host ids route state).ids (runRoute host ids route state).state.store := by
  have h := h ⟨state.store, state.cache, ids, state.ticks + 1⟩ hp
  rw [runRoute]
  split
  · rename_i hx
    rw [hx] at h
    exact h
  · rename_i hx
    rw [hx] at h
    exact h

section
variable {base : MemoryGatewayStore Mode} {v : Reservation} {host : Host Mode}

theorem nextId_spec {g : GatewayIdGenerator} :
    Triple (fun w : Work Mode Cache GatewayIdGenerator => w.ids = g ∧ w.store = base) nextId
      (fun id w => id = g.peek ∧ w.store = base) fun w => w.store = base := by
  refine Route.mint_spec (P := fun ids s => ids = g ∧ s = base)
    (Q := fun id _ s => id = g.peek ∧ s = base) (E := fun _ s => s = base) ?_ ?_
  · rintro ids s ⟨rfl, rfl⟩
    exact ⟨rfl, rfl⟩
  · rintro ids s ⟨-, rfl⟩
    rfl

theorem createFile_created {g : GatewayIdGenerator} (hroom : Room v .file base g 1)
    (request : GatewayRequest) :
    Triple (fun w : Work Mode Cache GatewayIdGenerator => w.ids = g ∧ w.store = base)
      (createFile host request) (fun _ w => Created v base base w.store)
      fun w => Created v base base w.store := by
  have hstart (w : Work Mode Cache GatewayIdGenerator) (h : w.store = base) :
      Created v base base w.store := by
    rw [h]
  let P (ids : GatewayIdGenerator) (s : MemoryGatewayStore Mode) : Prop := ids = g ∧ s = base
  have hP (w : Work Mode Cache GatewayIdGenerator) (h : P w.ids w.store) :=
    hstart w h.2
  refine ((Route.Keeps.ofExcept (P := P) _).within hP).bind fun object => ?_
  refine ((Route.Keeps.ofExcept (P := P) _).within hP).bind fun filename => ?_
  refine ((Route.Keeps.ofExcept (P := P) _).within hP).bind fun bytes => ?_
  refine ((Route.Keeps.kernel (P := P) _).within hP).bind fun cid => ?_
  refine ((Route.Keeps.ofExcept (P := P) _).within hP).bind fun ref => ?_
  refine (nextId_spec.weaken (fun _ h => h) (fun _ _ h => h) hstart).bind fun id => ?_
  rintro w ⟨rfl, hw⟩
  refine ((Route.Keeps.nowMs (P := fun _ s => s = base) host).within hstart).bind (fun ms => ?_) w hw
  refine Triple.bind (Q := fun _ w => Created v base base w.store) (.modify fun w hw => ?_)
    fun _ => .pure fun _ h => h
  rw [hw]
  exact .single (.file _ bytes hroom.mints hroom.peek_unused)

theorem createThread_created {g : GatewayIdGenerator} (hroom : Room v .thread base g 1)
    (request : GatewayRequest) :
    Triple (fun w : Work Mode Cache GatewayIdGenerator => w.ids = g ∧ w.store = base)
      (createThread host request) (fun _ w => Created v base base w.store)
      fun w => Created v base base w.store := by
  have hstart (w : Work Mode Cache GatewayIdGenerator) (h : w.store = base) :
      Created v base base w.store := by
    rw [h]
  let P (ids : GatewayIdGenerator) (s : MemoryGatewayStore Mode) : Prop := ids = g ∧ s = base
  let Q (_ : GatewayIdGenerator) (s : MemoryGatewayStore Mode) : Prop := s = base
  refine ((Route.Keeps.ofExcept (P := P) _).within fun w h => hstart w h.2).bind fun object => ?_
  refine (nextId_spec.weaken (fun _ h => h) (fun _ _ h => h) hstart).bind fun id => ?_
  rintro w ⟨rfl, hw⟩
  refine ((Route.Keeps.nowMs (P := Q) host).within hstart).bind (fun ms => ?_) w hw
  refine ((Route.Keeps.ofExcept (P := Q) _).within hstart).bind fun metadata => ?_
  refine Triple.bind (Q := fun _ w => Created v base base w.store) (.modify fun w hw => ?_)
    fun _ => .pure fun _ h => h
  rw [show w.store = base from hw]
  exact .single (.thread _ hroom.mints hroom.peek_unused)

/-- A message is appended to its thread; no object is written. -/
theorem appendMessage_created (threadId : String) (request : GatewayRequest) :
    Triple (fun w : Work Mode Cache GatewayIdGenerator => w.store = base)
      (appendMessage host threadId request) (fun _ w => Created v base base w.store)
      fun w => Created v base base w.store := by
  have hstart (w : Work Mode Cache GatewayIdGenerator) (h : w.store = base) :
      Created v base base w.store := by
    rw [h]
  let Q (_ : GatewayIdGenerator) (s : MemoryGatewayStore Mode) : Prop := s = base
  refine ((Route.Keeps.observe (P := Q) _).within hstart).bind fun _ => ?_
  refine ((Route.Keeps.ofExcept (P := Q) _).within hstart).bind fun object => ?_
  refine ((Route.Keeps.ofExcept (P := Q) _).within hstart).bind fun role => ?_
  refine ((Route.Keeps.ofExcept (P := Q) _).within hstart).bind fun content => ?_
  refine ((Route.Keeps.mint (P := Q) fun _ _ _ h => h).within hstart).bind fun id => ?_
  refine ((Route.Keeps.nowMs (P := Q) host).within hstart).bind fun ms => ?_
  refine Triple.bind (Q := fun _ w => Created v base base w.store) (.modify fun w hw => ?_)
    fun _ => .pure fun _ h => h
  rw [show w.store = base from hw]
  exact .single (.record ⟨rfl, rfl, rfl, rfl, rfl, rfl⟩)

/-- The records of the ledger are no objects. -/
theorem quiet_created (v : Reservation) (base : MemoryGatewayStore Mode) :
    Quiet fun _ s => Created v base base s where
  ids h _ := h
  records h hs := h.tail (.record hs)

theorem createItems_keeps {P : VectorStoreIdGenerators → MemoryGatewayStore Mode → Prop}
    (hP : ∀ g ids s, P ids s → P { ids with item := g } s) (specs : List ItemSpec) :
    Route.Keeps P (createItems host specs :
      Route Mode Cache VectorStoreIdGenerators (List GatewayVectorStoreItem)) := by
  induction specs with
  | nil => exact .pure _
  | cons spec specs ih =>
    refine .bind ?_ fun id => .bind ih fun items => .pure _
    cases spec.id with
    | none => exact .mint hP
    | some id => exact .pure id

theorem createVectorStore_created {g : GatewayIdGenerator} (hroom : Room v .vectorStore base g 1)
    (request : GatewayRequest) :
    Triple
      (fun w : Work Mode Cache VectorStoreIdGenerators => w.ids.vectorStore = g ∧ w.store = base)
      (createVectorStore host request) (fun _ w => Created v base base w.store)
      fun w => Created v base base w.store := by
  have hstart (w : Work Mode Cache VectorStoreIdGenerators) (h : w.store = base) :
      Created v base base w.store := by
    rw [h]
  let P (ids : VectorStoreIdGenerators) (s : MemoryGatewayStore Mode) : Prop :=
    ids.vectorStore = g ∧ s = base
  have hP (w : Work Mode Cache VectorStoreIdGenerators) (h : P w.ids w.store) := hstart w h.2
  refine ((Route.Keeps.ofExcept (P := P) _).within hP).bind fun object => ?_
  refine ((Route.Keeps.ofExcept (P := P) _).within hP).bind fun specs => ?_
  refine ((createItems_keeps (P := P) (fun _ _ _ h => h) specs).within hP).bind fun items => ?_
  refine Triple.bind (Q := fun id w => id = g.peek ∧ w.store = base) (Route.mint_spec (P := P)
    (Q := fun id _ s => id = g.peek ∧ s = base) (E := fun _ s => Created v base base s) ?_ ?_)
    fun id => ?_
  · rintro ids s ⟨rfl, hs⟩
    exact ⟨rfl, hs⟩
  · rintro ids s ⟨-, rfl⟩
    exact .refl
  rintro w ⟨rfl, hw⟩
  refine ((Route.Keeps.nowMs (P := fun _ s => s = base) host).within hstart).bind (fun ms => ?_) w hw
  refine Triple.bind (Q := fun _ w => Created v base base w.store) (.modify fun w hw => ?_)
    fun _ => ?_
  · rw [hw]
    exact .single (.vectorStore _ hroom.mints hroom.peek_unused)
  · refine Route.onIds_spec (P := fun _ s => Created v base base s)
      (Q := fun _ _ s => Created v base base s) (E := fun _ s => Created v base base s)
      (fun _ => rfl) fun ids => ?_
    exact (quiet_created v base).recordRouteExecution _ _

/-- A search records its execution; no object is written. -/
theorem searchVectorStores_created (vectorStoreId : String) (request : GatewayRequest) :
    Triple (fun w : Work Mode Cache GatewayRunIdGenerators => w.store = base)
      (searchVectorStores host vectorStoreId request) (fun _ w => Created v base base w.store)
      fun w => Created v base base w.store := by
  let P (_ : GatewayRunIdGenerators) (s : MemoryGatewayStore Mode) : Prop := Created v base base s
  refine Triple.weaken (P := fun w => P w.ids w.store) ?_ (fun w hw => ?_) (fun _ _ h => h)
    fun _ h => h
  · refine Route.Keeps.bind (.ofExcept _) fun object => ?_
    refine Route.Keeps.bind (.ofExcept _) fun query => ?_
    refine Route.Keeps.bind (.ofExcept _) fun limit => ?_
    refine Route.Keeps.bind (.observe _) fun vectorStore => ?_
    exact (quiet_created v base).recordRouteExecution _ _
  · rw [hw]

/-- A batch is written back as it is or cancelled. -/
theorem cancelBatch_created (hkeyed : Keyed base) (batchId : String) :
    Triple (fun w : Work Mode Cache Unit => w.store = base) (cancelBatch host batchId)
      (fun _ w => Created v base base w.store) fun w => Created v base base w.store := by
  have hstart (w : Work Mode Cache Unit) (h : w.store = base) : Created v base base w.store := by
    rw [h]
  refine Triple.bind (Q := fun batch w => base.batch batch.id = some batch ∧ w.store = base)
    (.observe ?_ hstart) fun batch => ?_
  · intro w batch hw hbatch
    rw [hw] at hbatch
    split at hbatch
    · rename_i hfound
      cases hbatch
      exact ⟨hkeyed.batch hfound ▸ hfound, hw⟩
    · cases hbatch
  rintro w ⟨hbatch, hw⟩
  refine Triple.bind (P := fun w => w.store = base) (Q := fun batch' w =>
    (batch' = batch ∨ ∃ ms, batch' = batch.cancel ms) ∧ w.store = base) ?_ (fun batch' => ?_) w hw
  · have hcancel : Triple (fun w : Work Mode Cache Unit => w.store = base)
        (do
          let cancelledAtMs ← Route.nowMs host
          return batch.cancel cancelledAtMs)
        (fun batch' w => (batch' = batch ∨ ∃ ms, batch' = batch.cancel ms) ∧ w.store = base)
        fun w => Created v base base w.store :=
      ((Route.Keeps.nowMs (P := fun _ s => s = base) host).within hstart).bind fun ms =>
        .pure fun _ h => ⟨.inr ⟨ms, rfl⟩, h⟩
    cases batch.status with
    | queued | inProgress => exact hcancel
    | completed | cancelled => exact .pure fun _ h => ⟨.inl rfl, h⟩
  · refine Triple.bind (Q := fun _ w => Created v base base w.store) (.modify ?_)
      fun _ => .pure fun _ h => h
    rintro w ⟨hcancel, hw⟩
    rw [hw]
    exact .single (.cancelBatch batch batch' hbatch hcancel)

end

/-! ## Batches -/

/-- A batch that has room for further files and responses. -/
structure Batching (v : Reservation) (base : MemoryGatewayStore Mode) (files responses : Nat)
    (ids : BatchIdGenerators) (s : MemoryGatewayStore Mode) : Prop where
  created : Created v base base s
  fileRoom : Room v .file s ids.file files
  responseRoom : Room v .response s ids.response.response responses

section
variable {base : MemoryGatewayStore Mode} {v : Reservation} {host : Host Mode}
  {engine : ResponseEngine Mode Cache} {capabilities : CapabilitySet} {files responses : Nat}

/-- Any execution of a batch item takes one response id at most. -/
theorem executeRoute_batching (request : GatewayRequest) {E : Work Mode Cache BatchIdGenerators → Prop} :
    Triple (fun w => Batching v base files (responses + 1) w.ids w.store)
      (onResponse (executeRoute host engine capabilities request))
      (fun _ w => Batching v base files responses w.ids w.store) E := by
  intro w h
  have hexecuted := executeResponseRequest_executed host engine capabilities request
    { w with ids := w.ids.response }
  obtain ⟨hcreated, hroom, -, hother⟩ := hexecuted.created base h.responseRoom
  exact ⟨h.created.trans hcreated, h.fileRoom.of_has fun id => (hother id .file nofun).mp, hroom⟩

theorem runBatchItem_batching (endpoint : String) (result : BatchRunResult) (line : Nat × String) :
    Triple (fun w => Batching v base files (responses + 1) w.ids w.store)
      (runBatchItem host engine capabilities endpoint result line)
      (fun _ w => Batching v base files responses w.ids w.store)
      fun w => Created v base base w.store := by
  let P (ids : BatchIdGenerators) (s : MemoryGatewayStore Mode) : Prop :=
    Batching v base files responses ids s
  have hP (w : Work Mode Cache BatchIdGenerators) (h : P w.ids w.store) := h.created
  rw [runBatchItem]
  split
  · refine (executeRoute_batching _).bind fun execution => ?_
    split
    · exact ((Route.Keeps.ofExcept (P := P) _).within hP).bind fun _ => .pure fun _ h => h
    · exact ((Route.Keeps.ofExcept (P := P) _).within hP).bind fun _ => .pure fun _ h => h
  · refine ((Route.Keeps.ofExcept (P := fun ids s => Batching v base files (responses + 1) ids s)
      _).within fun w h => h.created).bind fun _ => .pure fun w h => ?_
    exact { h with responseRoom := h.responseRoom.mono (Nat.le_succ _) }

theorem runBatchItems_batching (endpoint : String) (lines : List (Nat × String))
    (result : BatchRunResult) :
    Triple (fun w => Batching v base files (responses + lines.length) w.ids w.store)
      (runBatchItems host engine capabilities endpoint lines result)
      (fun _ w => Batching v base files responses w.ids w.store)
      fun w => Created v base base w.store := by
  induction lines generalizing result with
  | nil => exact .pure fun _ h => h
  | cons line lines ih =>
    refine Triple.bind ?_ fun result' => ih result'
    exact runBatchItem_batching endpoint result line

/-- The records of a batch take one file at most. -/
theorem storeJsonlFile_batching (batchId ending purpose : String) (records : List Json) :
    Triple
      (fun w : Work Mode Cache BatchIdGenerators =>
        Batching v base (files + 1) responses w.ids w.store)
      (storeJsonlFile host batchId ending purpose records)
      (fun _ w => Batching v base files responses w.ids w.store)
      fun w => Created v base base w.store := by
  let P (ids : BatchIdGenerators) (s : MemoryGatewayStore Mode) : Prop :=
    Batching v base (files + 1) responses ids s
  have hP (w : Work Mode Cache BatchIdGenerators) (h : P w.ids w.store) := h.created
  rw [storeJsonlFile]
  split
  · exact .pure fun w h => { h with fileRoom := h.fileRoom.mono (Nat.le_succ _) }
  · refine ((Route.Keeps.kernel (P := P) _).within hP).bind fun cid => ?_
    -- after the id of the file has been minted
    let Q (id : String) (ids : BatchIdGenerators) (s : MemoryGatewayStore Mode) : Prop :=
      Created v base base s ∧ Room v .response s ids.response.response responses ∧
        ∃ g, Room v .file s g (files + 1) ∧ id = g.peek ∧ ids.file = g.succ
    refine Triple.bind (Q := fun id w => Q id w.ids w.store) (Route.mint_spec (P := P) (Q := Q)
      (E := fun _ s => Created v base base s) (fun ids s h => ?_) fun _ _ h => h.created) fun id => ?_
    · exact ⟨h.created, h.responseRoom, ids.file, h.fileRoom, rfl, rfl⟩
    refine ((Route.Keeps.nowMs (P := Q id) host).within fun _ h => h.1).bind fun ms => ?_
    refine Triple.bind (Q := fun _ w => Batching v base files responses w.ids w.store) (.modify ?_)
      fun _ => .pure fun _ h => h
    rintro w ⟨hcreated, hresponses, g, hroom, rfl, hids⟩
    refine ⟨hcreated.tail (.file _ _ hroom.mints hroom.peek_unused), ?_, ?_⟩
    · rw [hids]
      refine hroom.succ fun id hid => ?_
      obtain hid | ⟨-, hid⟩ := (MemoryGatewayStore.has_putFile _ _).mp hid
      · exact .inl hid
      · exact .inr hid
    · refine hresponses.of_has fun id hid => ?_
      simpa [MemoryGatewayStore.has_putFile] using hid

theorem completeBatch_created (batch : GatewayBatch) (hid : v.Mints .batch batch.id)
    (hbase : ¬base.Has batch.id .batch) (lines : List (Nat × String)) :
    Triple (fun w => Batching v base 2 lines.length w.ids w.store)
      (completeBatch host engine capabilities batch lines)
      (fun _ w => Created v base base w.store) fun w => Created v base base w.store := by
  rw [← Nat.zero_add lines.length]
  refine (runBatchItems_batching batch.endpoint lines _).bind fun result => ?_
  refine (storeJsonlFile_batching _ _ _ _).bind fun outputFileId => ?_
  refine (storeJsonlFile_batching _ _ _ _).bind fun errorFileId => ?_
  refine ((Route.Keeps.nowMs (P := Batching v base 0 0) host).within fun _ h => h.created).bind
    fun ms => ?_
  refine Triple.bind (Q := fun _ w => Created v base base w.store) (.modify fun w h => ?_)
    fun _ => .pure fun _ h => h
  exact h.created.tail (.completeBatch _ hid hbase)

/-- A batch takes one id of its own, and those of its items unless it is deferred. -/
theorem createBatch_created (request : GatewayRequest) (g : BatchIdGenerators)
    (hfree : ∀ k id, v.Mints k id → ¬base.Has id k)
    (hroom : ∀ r, readBatchRequest host base request = .ok r → Room v .batch base g.batch 1 ∧
      (deferred r.object = false → Batching v base 2 r.lines.length g base)) :
    Triple (fun w => w.ids = g ∧ w.store = base) (createBatch host engine capabilities request)
      (fun _ w => Created v base base w.store) fun w => Created v base base w.store := by
  have hstart (w : Work Mode Cache BatchIdGenerators) (h : w.ids = g ∧ w.store = base) :
      Created v base base w.store := by
    rw [h.2]
  refine Triple.bind (Q := fun r w => (readBatchRequest host base request = .ok r ∧ w.ids = g) ∧
    w.store = base) (.observe (fun w r hw hr => ?_) hstart) fun r => ?_
  · rw [hw.2] at hr
    exact ⟨⟨hr, hw.1⟩, hw.2⟩
  rintro w ⟨⟨hr, hids⟩, hw⟩
  obtain ⟨hbatch, hbatching⟩ := hroom r hr
  let P (ids : BatchIdGenerators) (s : MemoryGatewayStore Mode) : Prop := ids = g ∧ s = base
  refine ((Route.Keeps.nowMs (P := P) host).within hstart).bind (fun ms => ?_) w ⟨hids, hw⟩
  let Q (id : String) (ids : BatchIdGenerators) (s : MemoryGatewayStore Mode) : Prop :=
    id = g.batch.peek ∧ ids.file = g.file ∧ ids.response = g.response ∧ s = base
  refine Triple.bind (Q := fun id w => Q id w.ids w.store) (Route.mint_spec (P := P) (Q := Q)
    (E := fun _ s => Created v base base s) ?_ ?_) fun id => ?_
  · rintro ids s ⟨rfl, hs⟩
    exact ⟨rfl, rfl, rfl, hs⟩
  · rintro ids s ⟨-, rfl⟩
    exact .refl
  rintro w ⟨rfl, hfile, hresponse, hw⟩
  let batch := GatewayBatch.new g.batch.peek r.inputFileId r.endpoint ms ⟨r.lines.length, 0, 0, 0⟩
  have hput : Creates v base base (base.putBatch batch) :=
    .batch batch hbatch.mints hbatch.peek_unused
  let R (w : Work Mode Cache BatchIdGenerators) : Prop :=
    w.ids.file = g.file ∧ w.ids.response = g.response ∧ w.store = base.putBatch batch
  refine Triple.bind (P := fun w => Q g.batch.peek w.ids w.store) (Q := fun _ w => R w)
    (.modify fun w h => ?_) (fun _ => ?_) w ⟨rfl, hfile, hresponse, hw⟩
  · obtain ⟨-, hfile, hresponse, hw⟩ := h
    exact ⟨hfile, hresponse, congrArg (·.putBatch batch) hw⟩
  · cases hdefer : deferred r.object with
    | true =>
      refine .pure fun w h => ?_
      rw [h.2.2]
      exact .single hput
    | false =>
      refine (completeBatch_created batch hbatch.mints (hfree _ _ hbatch.mints) r.lines).weaken
        (fun w h => ?_) (fun _ _ h => h) fun _ h => h
      obtain ⟨hfile, hresponse, hw⟩ := h
      have hbatching := hbatching hdefer
      rw [hw]
      refine ⟨.single hput, ?_, ?_⟩
      · rw [hfile]
        exact hbatching.fileRoom.of_has fun id hid => by
          simpa [MemoryGatewayStore.has_putBatch] using hid
      · rw [hresponse]
        exact hbatching.responseRoom.of_has fun id hid => by
          simpa [MemoryGatewayStore.has_putBatch] using hid

end

/-! ## Responses -/

section
variable {base s : MemoryGatewayStore Mode} {v : Reservation} {host : Host Mode}
  {engine : ResponseEngine Mode Cache} {capabilities : CapabilitySet}

/-- A response that the request has created is written again. -/
theorem Created.adopt (h : Created v base base s) (hkeyed : Keyed base)
    (hfree : ∀ k id, v.Mints k id → ¬base.Has id k) {id : String}
    {record record' : StoredGatewayResponse} (hrecord : s.responseObject id = some record)
    (hid : v.Mints .response id) (hsame : record'.responseId = record.responseId)
    (howner : record'.ownerKeyId = v.owner) :
    Created v base base (s.putResponseObject record') := by
  have hkey : record'.responseId = id := hsame.trans ((h.keyed hkeyed).response hrecord)
  exact h.tail (.adoptResponse record' (hkey ▸ hid) (hkey ▸ hfree _ _ hid) howner)

theorem stampResponseOwner_created (h : Created v base base s) (hkeyed : Keyed base)
    (hfree : ∀ k id, v.Mints k id → ¬base.Has id k) (execution : ResponseExecution Mode)
    (hid : ∀ id, execution.responseId = some id → v.Mints .response id) :
    Created v base base (stampResponseOwner v.owner execution s) := by
  rw [stampResponseOwner]
  split
  · exact h
  · rename_i record hrecord
    obtain ⟨id, hreported, hrecord⟩ := Option.bind_eq_some_iff.mp hrecord
    exact h.adopt hkeyed hfree hrecord (hid id hreported) rfl rfl

theorem adoptFork_created (h : Created v base base s) (hkeyed : Keyed base)
    (hfree : ∀ k id, v.Mints k id → ¬base.Has id k) (parentResponseId : String)
    {responseId : String} (hid : v.Mints .response responseId) :
    Created v base base (adoptFork parentResponseId v.owner responseId s) := by
  rw [adoptFork]
  split
  · exact h
  · rename_i record hrecord
    exact h.adopt hkeyed hfree hrecord hid rfl rfl

theorem forkResponse_created (hkeyed : Keyed base) (hfree : ∀ k id, v.Mints k id → ¬base.Has id k)
    {g : ResponseIdGenerators} (hroom : Room v .response base g.response 1)
    (parentResponseId : String) (patch : JsonObject) {access : SimRouteAccess}
    (howner : access.callerKeyId = v.owner) :
    Triple (fun w => w.ids = g ∧ w.store = base)
      (forkResponse host engine parentResponseId patch capabilities access)
      (fun _ w => Created v base base w.store) fun w => Created v base base w.store := by
  have hstart (w : Work Mode Cache ResponseIdGenerators) (h : w.ids = g ∧ w.store = base) :
      Created v base base w.store := by
    rw [h.2]
  let P (ids : ResponseIdGenerators) (s : MemoryGatewayStore Mode) : Prop := ids = g ∧ s = base
  refine ((Route.Keeps.observe (P := P) _).within hstart).bind fun source => ?_
  refine ((Route.Keeps.ofExcept (P := P) _).within hstart).bind fun request => ?_
  refine Triple.bind (Q := fun execution w => Created v base base w.store ∧
    ∀ id, execution.responseId = some id → v.Mints .response id) ?_ fun execution => ?_
  · rintro w ⟨rfl, hw⟩
    have hexecuted := executeResponseRequest_executed host engine capabilities request w
    rw [← hw] at hroom
    obtain ⟨hcreated, -, hid, -⟩ := hexecuted.created base hroom
    rw [hw] at hcreated
    exact ⟨hcreated, hid⟩
  split
  · exact .pure fun _ h => h.1
  · split
    · exact .fail fun _ h => h.1
    · rename_i responseId hreported
      refine Triple.bind (Q := fun _ w => Created v base base w.store) (.modify fun w h => ?_)
        fun _ => ?_
      · rw [howner]
        exact adoptFork_created h.1 hkeyed hfree _ (h.2 _ hreported)
      · split
        · exact .fail fun _ h => h
        · exact .observe (fun _ _ h _ => h) fun _ h => h

end

/-! ## Requests -/

/-- A single id of one kind. -/
def Kind.one (k : Kind) : Kind → Nat := fun k' => if k' = k then 1 else 0

@[simp] theorem Kind.one_self (k : Kind) : k.one k = 1 := if_pos rfl

/-- The ids of a batch: its own, and unless it is deferred two files and a response for each line
of its input. -/
def batchWidth (host : Host Mode) (request : GatewayRequest) (store : MemoryGatewayStore Mode) :
    Kind → Nat :=
  match readBatchRequest host store request with
  | .error _ => fun _ => 0
  | .ok r => fun
    | .batch => 1
    | .file => if deferred r.object then 0 else 2
    | .response => if deferred r.object then 0 else r.lines.length
    | .thread | .vectorStore => 0

theorem batchWidth_of_read {host : Host Mode} {request : GatewayRequest}
    {store : MemoryGatewayStore Mode} {r : BatchRequest}
    (hr : readBatchRequest host store request = .ok r) :
    batchWidth host request store .batch = 1 ∧ (deferred r.object = false →
      batchWidth host request store .file = 2 ∧
        batchWidth host request store .response = r.lines.length) := by
  rw [batchWidth, hr]
  refine ⟨rfl, fun hdefer => ?_⟩
  simp [hdefer]

/-- What a request may create. -/
def Gateway.reserves (gateway : Gateway Mode Cache) (request : GatewayRequest)
    (state : GatewayState Mode Cache) (route : GatewayRoute) : Reservation where
  start :=
    match route with
    | .simFork => (forkSeed gateway.host state).toNat
    | _ => (seedOf gateway.host state).toNat
  width :=
    match route with
    | .responses | .simFork => Kind.response.one
    | .files => Kind.file.one
    | .batches => batchWidth gateway.host request state.store
    | .vectorStores => Kind.vectorStore.one
    | .threads => Kind.thread.one
    | .simReplay | .vectorStoreSearch | .batchCancel | .threadPost | .responseEvents | .responseSim
    | .responseRetrieval => fun _ => 0
  owner := gateway.keys.callerKeyId gateway.host request

theorem readForkRequest_access {host : Host Mode} {keys : OpenAiKeyTable} {request : GatewayRequest}
    {fork : ForkRequest} (h : readForkRequest host keys request = .ok fork) :
    simRouteAccess host keys request = .ok fork.access := by
  obtain ⟨object, -, h⟩ := Except.bind_eq_ok_iff.mp h
  obtain ⟨responseId, -, h⟩ := Except.bind_eq_ok_iff.mp h
  split at h
  · cases h
  · obtain ⟨access, haccess, h⟩ := Except.bind_eq_ok_iff.mp h
    cases h
    exact haccess

theorem simRouteAccess_callerKeyId {host : Host Mode} {keys : OpenAiKeyTable}
    {request : GatewayRequest} {access : SimRouteAccess}
    (h : simRouteAccess host keys request = .ok access) :
    access.callerKeyId = keys.callerKeyId host request := by
  rw [simRouteAccess] at h
  split at h
  · cases h
  · cases h
    rfl

section
variable (gateway : Gateway Mode Cache) (request : GatewayRequest)
  (state : GatewayState Mode Cache)

/-- Whatever a request does to the durable objects, it creates them under unused ids. -/
theorem Gateway.handle_created (route : GatewayRoute) (hkeyed : Keyed state.store)
    (hfree : ∀ k id, (gateway.reserves request state route).Mints k id → ¬state.store.Has id k) :
    Created (gateway.reserves request state route) state.store state.store
      (gateway.handle request state route).2.store := by
  cases route with
  | simReplay | responseEvents | responseSim | responseRetrieval => exact .refl
  | files =>
    exact runRoute_spec (P := fun ids s => ids = _ ∧ s = state.store)
      (I := fun _ s => Created _ state.store state.store s)
      (createFile_created (.deterministic (hfree .file) rfl) request) ⟨rfl, rfl⟩
  | threads =>
    exact runRoute_spec (P := fun ids s => ids = _ ∧ s = state.store)
      (I := fun _ s => Created _ state.store state.store s)
      (createThread_created (.deterministic (hfree .thread) rfl) request) ⟨rfl, rfl⟩
  | vectorStores =>
    let ids := VectorStoreIdGenerators.deterministic (seedOf gateway.host state)
    exact runRoute_spec (P := fun ids' s => ids'.vectorStore = ids.vectorStore ∧ s = state.store)
      (I := fun _ s => Created _ state.store state.store s)
      (createVectorStore_created (.deterministic (hfree .vectorStore) rfl) request) ⟨rfl, rfl⟩
  | threadPost =>
    simp only [handle, Handled.answer, handleThreadPost]
    split
    · exact .refl
    · exact runRoute_spec (P := fun _ s => s = state.store)
        (I := fun _ s => Created _ state.store state.store s) (appendMessage_created _ request) rfl
  | vectorStoreSearch =>
    simp only [handle, Handled.answer, handleVectorStoreSearch]
    split
    · exact .refl
    · exact runRoute_spec (P := fun _ s => s = state.store)
        (I := fun _ s => Created _ state.store state.store s)
        (searchVectorStores_created _ request) rfl
  | batchCancel =>
    simp only [handle, Handled.answer, handleBatchCancel]
    split
    · exact .refl
    · rename_i batchId _
      have h : Created (gateway.reserves request state .batchCancel) state.store state.store
          (cancelBatch gateway.host batchId ⟨state.store, state.cache, (), state.ticks⟩).2.store :=
        (cancelBatch_created hkeyed batchId).final rfl
      split
      · rename_i hx
        rw [hx] at h
        exact h
      · rename_i hx
        rw [hx] at h
        exact h
  | batches =>
    let ids := BatchIdGenerators.deterministic (seedOf gateway.host state)
    refine runRoute_spec (P := fun ids' s => ids' = ids ∧ s = state.store)
      (I := fun _ s => Created _ state.store state.store s)
      (createBatch_created request ids hfree fun r hr => ?_) ⟨rfl, rfl⟩
    have hroom (k : Kind) : Room (gateway.reserves request state .batches) k state.store
        (.deterministic k.stem (seedOf gateway.host state))
        (batchWidth gateway.host request state.store k) :=
      .deterministic (hfree k) rfl
    obtain ⟨hbatch, hitems⟩ := batchWidth_of_read hr
    refine ⟨hbatch ▸ hroom .batch, fun hdefer => ?_⟩
    obtain ⟨hfile, hresponse⟩ := hitems hdefer
    exact ⟨.refl, hfile ▸ hroom .file, hresponse ▸ hroom .response⟩
  | responses =>
    have hexecuted := executeResponseRequest_executed gateway.host gateway.engine
      (gateway.keys.effectiveCapabilities gateway.host request) (gatewayRequestFromBody request.body)
      ⟨state.store, state.cache, .deterministic (seedOf gateway.host state), state.ticks + 1⟩
    obtain ⟨hcreated, -, hid, -⟩ := hexecuted.created state.store
      (.deterministic (hfree .response) rfl)
    exact stampResponseOwner_created hcreated hkeyed hfree _ hid
  | simFork =>
    simp only [handle, Handled.answer, handleSimFork]
    split
    · exact .refl
    · rename_i fork hfork
      have howner := simRouteAccess_callerKeyId (readForkRequest_access hfork)
      let ids := GatewayRunIdGenerators.deterministic (forkSeed gateway.host state)
      exact runRoute_spec (P := fun ids' s => ids' = ids ∧ s = state.store)
        (I := fun _ s => Created _ state.store state.store s)
        (forkResponse_created hkeyed hfree (.deterministic (hfree .response) rfl) _ _ howner)
        ⟨rfl, rfl⟩

end

/-! ## Runs -/

/-- A request that has been handled, with the state it found. -/
structure Served (Mode Cache : Type) where
  request : GatewayRequest
  route : GatewayRoute
  state : GatewayState Mode Cache

/-- The ids the request could mint. -/
def Gateway.reserved (gateway : Gateway Mode Cache) (served : Served Mode Cache) : Reservation :=
  gateway.reserves served.request served.state served.route

/-- The ids of a request do not meet those of the earlier ones. -/
def Gateway.ApartFrom (gateway : Gateway Mode Cache) (past : List (Served Mode Cache))
    (served : Served Mode Cache) : Prop :=
  ∀ earlier ∈ past, (gateway.reserved served).Apart (gateway.reserved earlier)

/-- A run of a gateway from an empty store, with the latest request first, in which the ids of any
two requests are apart. -/
inductive Gateway.Runs (gateway : Gateway Mode Cache) :
    List (Served Mode Cache) → GatewayState Mode Cache → Prop
  | start (cache : Cache) (ticks : Nat) : Runs gateway [] ⟨.new, cache, ticks⟩
  | handle (h : Runs gateway past state) (request : GatewayRequest) (route : GatewayRoute)
      (hapart : gateway.ApartFrom past ⟨request, route, state⟩) :
      Runs gateway (⟨request, route, state⟩ :: past) (gateway.handle request state route).2

/-- Every id in use was reserved by a request of the past. -/
structure Accounted (gateway : Gateway Mode Cache) (past : List (Served Mode Cache))
    (s : MemoryGatewayStore Mode) : Prop where
  keyed : Keyed s
  reserved : ∀ id k, s.Has id k → ∃ served ∈ past, (gateway.reserved served).Mints k id

namespace Accounted
variable {gateway : Gateway Mode Cache} {past : List (Served Mode Cache)}

theorem new (gateway : Gateway Mode Cache) : Accounted gateway [] .new where
  keyed := ⟨nofun, nofun⟩
  reserved id k h := by
    cases k with
    | file => exact h.elim nofun nofun
    | batch | thread | vectorStore | response => exact absurd h nofun

/-- The ids of a request that is apart from the past are not in use. -/
theorem free {s : MemoryGatewayStore Mode} (h : Accounted gateway past s)
    {served : Served Mode Cache} (hapart : gateway.ApartFrom past served) (k : Kind) (id : String)
    (hid : (gateway.reserved served).Mints k id) : ¬s.Has id k := by
  intro hhas
  obtain ⟨earlier, hearlier, hmints⟩ := h.reserved id k hhas
  exact (hapart earlier hearlier).not_mints hid hmints

theorem handle {state : GatewayState Mode Cache} (h : Accounted gateway past state.store)
    {request : GatewayRequest} {route : GatewayRoute}
    (hapart : gateway.ApartFrom past ⟨request, route, state⟩) :
    Accounted gateway (⟨request, route, state⟩ :: past)
      (gateway.handle request state route).2.store := by
  have hcreated := gateway.handle_created request state route h.keyed (h.free hapart)
  refine ⟨hcreated.keyed h.keyed, fun id k hid => ?_⟩
  obtain hid | hid := hcreated.has hid
  · obtain ⟨served, hserved, hmints⟩ := h.reserved id k hid
    exact ⟨served, List.mem_cons_of_mem _ hserved, hmints⟩
  · exact ⟨_, List.mem_cons_self, hid⟩

end Accounted

theorem Gateway.Runs.accounted {gateway : Gateway Mode Cache} {past : List (Served Mode Cache)}
    {state : GatewayState Mode Cache} (h : gateway.Runs past state) :
    Accounted gateway past state.store := by
  induction h with
  | start => exact .new gateway
  | handle _ request route hapart ih => exact ih.handle hapart

/-- In every run in which the ids of any two requests are apart, every object is created under an
id that is not in use, and the objects of the store stay as they are. -/
theorem ids_never_reused {gateway : Gateway Mode Cache} {past : List (Served Mode Cache)}
    {state : GatewayState Mode Cache} (h : gateway.Runs past state) (request : GatewayRequest)
    (route : GatewayRoute) (hapart : gateway.ApartFrom past ⟨request, route, state⟩) :
    (∀ k id, (gateway.reserves request state route).Mints k id → ¬state.store.Has id k) ∧
      Created (gateway.reserves request state route) state.store state.store
        (gateway.handle request state route).2.store ∧
      KeepsObjects state.store (gateway.handle request state route).2.store := by
  have hfree := h.accounted.free hapart
  have hcreated := gateway.handle_created request state route h.accounted.keyed hfree
  exact ⟨hfree, hcreated, hcreated.keeps⟩

/-! ## Two uploads -/

namespace Sample

/-- The upload of a file with the given content. -/
def uploadBody (content : String) : List UInt8 :=
  Text.utf8 ("\x7b\"content\":\"" ++ content ++ "\",\"filename\":\"notes.txt\"\x7d")

def uploadObject (content : String) : Json :=
  .object [("content", .string content), ("filename", .string "notes.txt")]

def upload (content : String) : GatewayRequest := .new "POST" "/v1/files" [] (uploadBody content)

/-- A gateway without keys that reads the two uploads. -/
def gateway (clock : Nat → Except String UInt64) : Gateway Unit Unit where
  host := { host with
    encodeFrame := fun
      | .bytes bytes => .ok bytes
      | _ => .error "unknown expression"
    serde := { host.serde with
      fromSlice := fun bytes =>
        if bytes = uploadBody "a" then .ok (uploadObject "a")
        else if bytes = uploadBody "b" then .ok (uploadObject "b")
        else .error "expected value" }
    clock }
  engine := engine
  keys := ⟨∅, ∅⟩
  print := ⟨fun _ => .null, fun _ => []⟩
  emptyCache := ()

def still (_ : Nat) : Except String UInt64 := .ok 7

def ticking (n : Nat) : Except String UInt64 := .ok (.ofNat (n + 1))

abbrev uploaded (clock : Nat → Except String UInt64) : GatewayResponse × GatewayState Unit Unit :=
  (gateway clock).handle (upload "a") ⟨.new, (), 0⟩ .files

abbrev uploadedAgain (clock : Nat → Except String UInt64) :
    GatewayResponse × GatewayState Unit Unit :=
  (gateway clock).handle (upload "b") (uploaded clock).2 .files

end Sample

theorem ids_never_reused_ticking :
    (Sample.uploaded Sample.ticking).1.status = 200 ∧
      (Sample.uploadedAgain Sample.ticking).1.status = 200 ∧
      KeepsObjects (Sample.uploaded Sample.ticking).2.store
        (Sample.uploadedAgain Sample.ticking).2.store := by
  let first : Served Unit Unit := ⟨Sample.upload "a", .files, ⟨.new, (), 0⟩⟩
  let second : Served Unit Unit := ⟨Sample.upload "b", .files, (Sample.uploaded Sample.ticking).2⟩
  have hruns : (Sample.gateway Sample.ticking).Runs [first] (Sample.uploaded Sample.ticking).2 :=
    .handle (.start () 0) (Sample.upload "a") .files (List.forall_mem_nil _)
  have hfirst : ((Sample.gateway Sample.ticking).reserved first).start = 1 := by decide +kernel
  have hwidth (k : Kind) : ((Sample.gateway Sample.ticking).reserved first).width k ≤ 1 := by
    cases k <;> decide +kernel
  have hsecond : ((Sample.gateway Sample.ticking).reserved second).start = 3 := by decide +kernel
  refine ⟨by decide +kernel, by decide +kernel,
    (ids_never_reused hruns (Sample.upload "b") .files fun earlier hearlier => ?_).2.2⟩
  cases List.mem_singleton.mp hearlier
  rintro k n ⟨⟨hlow, -⟩, -, hhigh⟩
  have hlow' : 3 ≤ n := hsecond ▸ hlow
  have := hwidth k
  omega

/-- Two uploads in the same millisecond get the same id, and the second replaces the bytes of the
first. -/
theorem second_upload_replaces_first :
    (∀ n, (Sample.gateway Sample.still).host.clock n = .ok 7) ∧
      (Sample.uploaded Sample.still).1.status = 200 ∧
      (Sample.uploadedAgain Sample.still).1.status = 200 ∧
      (Sample.uploaded Sample.still).2.store.fileBytesOf "file_000007" = some (Text.utf8 "a") ∧
      (Sample.uploadedAgain Sample.still).2.store.fileBytesOf "file_000007" =
        some (Text.utf8 "b") ∧
      ¬KeepsObjects (Sample.uploaded Sample.still).2.store
        (Sample.uploadedAgain Sample.still).2.store := by
  have hfirst : (Sample.uploaded Sample.still).2.store.fileBytesOf "file_000007" =
      some (Text.utf8 "a") := by decide +kernel
  have hsecond : (Sample.uploadedAgain Sample.still).2.store.fileBytesOf "file_000007" =
      some (Text.utf8 "b") := by decide +kernel
  refine ⟨fun _ => rfl, by decide +kernel, by decide +kernel, hfirst, hsecond, fun hkeeps => ?_⟩
  have heq := (hkeeps.fileBytes hfirst).symm.trans hsecond
  exact absurd heq (by decide +kernel)

end SimAgentNet.OpenaiServer
