import SimAgentNet.AgentConductCore.Commit

/-! # Chains in the store in memory

Whatever records are appended, under whatever run ids, every run that the store holds is a chain of
one graph and one set of bindings, and it only grows (`performed_keeps_chains`). -/

namespace SimAgentNet.AgentConductCore
variable {Mode : Type} [DecidableEq Mode] {debug : Mode → String} {digestHex : List UInt8 → String}

namespace InMemoryJournalStore
open AgentJournal

variable (debug digestHex) in
/-- The records are a chain of one graph and one set of bindings. -/
def IsChain (records : List (AgentJournalRecord Mode)) : Prop :=
  ∃ graph bindings, fromRecords debug digestHex graph bindings records =
    .ok ⟨graph, bindings, records⟩

variable (debug digestHex) in
/-- The store after some calls of `append`, each with a run id and a record. -/
def performed (calls : List (Symbol × AgentJournalRecord Mode)) : InMemoryJournalStore Mode :=
  calls.foldl (fun store call => (append debug digestHex call.1 call.2 store).2) ⟨∅⟩

theorem reachable_performed (calls : List (Symbol × AgentJournalRecord Mode)) :
    (performed debug digestHex calls).Reachable debug digestHex := by
  induction calls using List.reverseRecOn with
  | nil => exact .empty
  | append_singleton calls call ih =>
    rw [performed, List.foldl_concat]
    exact .append ih

section
variable {store : InMemoryJournalStore Mode} {runId : Symbol} {record : AgentJournalRecord Mode}

/-- An accepted record continues the chain of its run. -/
theorem isChain_concat (ho : Ordered rs)
    (hj : fromRecords debug digestHex record.graphFingerprint record.bindingFingerprint rs = .ok j)
    (hlook : rs[record.sequence]? = none) (hok : (j.insert debug digestHex record).isOk) :
    IsChain debug digestHex (rs ++ [record]) := by
  obtain rfl := fromRecords_ordered ho hj
  have hchain : Chained debug digestHex ⟨record.graphFingerprint, record.bindingFingerprint, rs⟩ := hj
  obtain ⟨j', hj'⟩ := Except.exists_of_isOk hok
  refine ⟨record.graphFingerprint, record.bindingFingerprint, ?_⟩
  obtain ⟨hsome, -⟩ | ⟨-, -, -, rfl⟩ := insert_cases hj'
  · exact nomatch hlook.symm.trans hsome
  · exact hchain.next rfl rfl hj'

theorem Reachable.isChain (h : store.Reachable debug digestHex) (id : Symbol) :
    IsChain debug digestHex (store.records id) := by
  induction h generalizing id with
  | empty => exact ⟨"", "", rfl⟩
  | @append store target record hstore ih =>
    have hput : ∀ rs, IsChain debug digestHex rs →
        IsChain debug digestHex ((store.put target rs).records id) := by
      intro rs hrs
      by_cases heq : id = target
      · rw [heq, records_put_self]
        exact hrs
      · rw [records_put_ne _ _ heq]
        exact ih id
    obtain heq | ⟨heq, j, hj, hlook, hok⟩ := append_cases debug digestHex store target record
    · rw [heq]
      exact hput _ (ih target)
    · rw [heq]
      exact hput _ (isChain_concat (hstore.ordered target) hj hlook hok)

/-- No run loses a record. -/
theorem records_prefix_append (store : InMemoryJournalStore Mode) (runId : Symbol)
    (record : AgentJournalRecord Mode) (id : Symbol) :
    store.records id <+: (append debug digestHex runId record store).2.records id := by
  obtain heq | ⟨heq, -⟩ := append_cases debug digestHex store runId record
  · rw [heq, records_put_records]
  · rw [heq]
    by_cases hid : id = runId
    · rw [hid, records_put_self]
      exact List.prefix_append _ _
    · rw [records_put_ne _ _ hid]

/-- A record that is stored stands at its sequence number, where an append finds it. -/
theorem append_stored (ho : Ordered (store.records runId)) (h : record ∈ store.records runId) :
    append debug digestHex runId record store = (.ok (), store) := by
  obtain ⟨i, hi⟩ := List.mem_iff_getElem?.mp h
  obtain ⟨rs, hget⟩ : ∃ rs, store.runs.get? runId = some rs := by
    refine Option.ne_none_iff_exists'.mp fun hnone => ?_
    rw [records, hnone] at h
    cases h
  have hput : store.put runId (store.records runId) = store := by
    obtain ⟨runs⟩ := store
    refine congrArg InMemoryJournalStore.mk (SortedMap.ext fun k => ?_)
    rw [SortedMap.get?_insert]
    split
    · rename_i heq
      rw [records, heq, hget, Option.getD_some]
    · rfl
  have hlook : (store.records runId)[record.sequence]? = some record := ho i record hi ▸ hi
  simp only [append, hlook, if_true, hput]

end

/-- Over every sequence of appends and after one more: every stored run is a chain, every run
extends what it was, a stored record changes nothing and a refused one changes no run. -/
theorem performed_keeps_chains (calls : List (Symbol × AgentJournalRecord Mode)) (runId : Symbol)
    (record : AgentJournalRecord Mode) :
    let store := performed debug digestHex calls
    let after := append debug digestHex runId record store
    (∀ id records, after.2.runs.get? id = some records → IsChain debug digestHex records) ∧
      (∀ id, store.records id <+: after.2.records id) ∧
      (record ∈ store.records runId → after = (.ok (), store)) ∧
      ∀ e, after.1 = .error e → after.2.records = store.records := by
  intro store after
  have hstore : store.Reachable debug digestHex := reachable_performed calls
  refine ⟨?_, records_prefix_append store runId record, append_stored (hstore.ordered runId), ?_⟩
  · intro id rs hget
    have hafter : (append debug digestHex runId record store).2.Reachable debug digestHex :=
      .append hstore
    have hchain := hafter.isChain id
    rwa [records, hget, Option.getD_some] at hchain
  · intro e he
    exact append_error_records (Prod.ext he rfl)

end InMemoryJournalStore

end SimAgentNet.AgentConductCore
