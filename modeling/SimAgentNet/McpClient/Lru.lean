import SimAgentNet.Data.Recency
import SimAgentNet.McpClient.Cache

/-! # The cache as an LRU

Runs of the cache against the history of the calls. A get that finds its key expired removes the row
and leaves the key in the order. -/

namespace SimAgentNet.McpClient
open Recency

/-- A call of the cache. -/
inductive CacheCall where
  | get (key : CacheKey) (nowMs : Nat)
  | put (key : CacheKey) (value : OpenaiServer.Json) (expiresAtMs : Nat)
  | clearEndpoint (endpoint : EndpointIdentity)

namespace MemoryState

def keys (state : MemoryState) : List CacheKey := state.rows.map (·.1)

/-- What the call returns where it is a get, and the state it leaves. -/
def call (capacity : Nat) (state : MemoryState) : CacheCall → Option OpenaiServer.Json × MemoryState
  | .get key nowMs => state.get key nowMs
  | .put key value expiresAtMs => (none, state.put capacity key value expiresAtMs)
  | .clearEndpoint endpoint => (none, state.clearEndpoint endpoint)

/-- The state after the calls, the newest first. -/
def after (capacity : Nat) : List CacheCall → MemoryState
  | [] => empty
  | call :: earlier => ((after capacity earlier).call capacity call).2

/-- The eviction loop of a put, from the state it finds to the one it leaves. It does not end on an
empty order while there are more rows than the capacity. -/
inductive EvictLoop (capacity : Nat) : MemoryState → MemoryState → Prop
  | done {state : MemoryState} (h : ¬capacity < state.rows.length) : EvictLoop capacity state state
  | pop {rows : List (CacheKey × Entry)} {oldest : CacheKey} {order : List CacheKey}
    (h : capacity < rows.length) (rest : EvictLoop capacity ⟨remove rows oldest, order⟩ state) :
    EvictLoop capacity ⟨rows, oldest :: order⟩ state
  | spin {rows : List (CacheKey × Entry)} (h : capacity < rows.length)
    (rest : EvictLoop capacity ⟨rows, []⟩ state) : EvictLoop capacity ⟨rows, []⟩ state

/-- What a put leaves before it evicts. -/
def inserted (state : MemoryState) (key : CacheKey) (value : OpenaiServer.Json)
    (expiresAtMs : Nat) : MemoryState :=
  ⟨(key, ⟨value, expiresAtMs⟩) :: remove state.rows key, touch key state.order⟩

/-- The order lists exactly the keys of the rows, each once, and at most as many as the capacity. -/
structure Balanced (capacity : Nat) (state : MemoryState) : Prop where
  nodup : state.order.Nodup
  mem_iff : ∀ key, key ∈ state.order ↔ key ∈ state.keys
  length_le : state.order.length ≤ capacity

/-- The key has a row that has expired. -/
def Expired (state : MemoryState) (key : CacheKey) (nowMs : Nat) : Prop :=
  ∃ entry, state.rows.lookup key = some entry ∧ entry.expiresAtMs ≤ nowMs

/-! ## The history -/

/-- What the last put of the key stored, if its endpoint has not been cleared since. -/
def lastPut (key : CacheKey) : List CacheCall → Option Entry
  | [] => none
  | .put k value expiresAtMs :: earlier =>
    if k = key then some ⟨value, expiresAtMs⟩ else lastPut key earlier
  | .clearEndpoint endpoint :: earlier =>
    if key.endpoint = endpoint then none else lastPut key earlier
  | .get _ _ :: earlier => lastPut key earlier

/-- The keys of puts and hits, newest first. -/
def uses (capacity : Nat) : List CacheCall → List CacheKey
  | [] => []
  | .put key _ _ :: earlier => key :: uses capacity earlier
  | .get key nowMs :: earlier =>
    if ((after capacity earlier).get key nowMs).1.isSome then key :: uses capacity earlier
    else uses capacity earlier
  | .clearEndpoint _ :: earlier => uses capacity earlier

/-- The cache after the calls is balanced, the eviction loop of the next put ends, the next get
returns no value but the one last put, not expired and not cleared, and it misses such a value only
where as many other keys as the capacity have been used since. -/
structure ExactLru (capacity : Nat) (calls : List CacheCall) : Prop where
  balanced : (after capacity calls).Balanced capacity
  ends : ∀ key value expiresAtMs, EvictLoop capacity
    ((after capacity calls).inserted key value expiresAtMs)
    ((after capacity calls).put capacity key value expiresAtMs)
  hit : ∀ key nowMs value, ((after capacity calls).get key nowMs).1 = some value →
    ∃ entry, lastPut key calls = some entry ∧ entry.value = value ∧ nowMs < entry.expiresAtMs
  miss : ∀ key nowMs entry, ((after capacity calls).get key nowMs).1 = none →
    lastPut key calls = some entry → nowMs < entry.expiresAtMs →
      capacity ≤ others (uses capacity calls) key

/-! ## One call -/

theorem mem_remove {rows : List (CacheKey × Entry)} {key : CacheKey} {row : CacheKey × Entry} :
    row ∈ remove rows key ↔ row ∈ rows ∧ row.1 ≠ key := by
  rw [remove, List.mem_filter, decide_eq_true_iff]

theorem mem_keys_remove {rows : List (CacheKey × Entry)} {key k : CacheKey} :
    k ∈ (remove rows key).map (·.1) ↔ k ∈ rows.map (·.1) ∧ k ≠ key := by
  constructor
  · intro h
    obtain ⟨row, hrow, rfl⟩ := List.mem_map.mp h
    exact ⟨List.mem_map_of_mem (mem_remove.mp hrow).1, (mem_remove.mp hrow).2⟩
  · rintro ⟨h, hne⟩
    obtain ⟨row, hrow, rfl⟩ := List.mem_map.mp h
    exact List.mem_map_of_mem (mem_remove.mpr ⟨hrow, hne⟩)

theorem nodup_filter {rows : List (CacheKey × Entry)} (h : (rows.map (·.1)).Nodup)
    (p : CacheKey × Entry → Bool) : ((rows.filter p).map (·.1)).Nodup :=
  h.sublist (List.filter_sublist.map _)

theorem lookup_eq_none {rows : List (CacheKey × Entry)} {key : CacheKey}
    (h : key ∉ rows.map (·.1)) : rows.lookup key = none := by
  refine List.lookup_eq_none_iff.mpr fun row hrow => bne_iff_ne.mpr ?_
  rintro rfl
  exact h (List.mem_map_of_mem hrow)

theorem mem_of_lookup {rows : List (CacheKey × Entry)} {key : CacheKey} {entry : Entry}
    (h : rows.lookup key = some entry) : (key, entry) ∈ rows := by
  obtain ⟨before, after, hrows, -⟩ := List.lookup_eq_some_iff.mp h
  rw [hrows]
  exact List.mem_append_right _ List.mem_cons_self

theorem mem_keys_of_lookup {state : MemoryState} {key : CacheKey} {entry : Entry}
    (h : state.rows.lookup key = some entry) : key ∈ state.keys :=
  List.mem_map_of_mem (mem_of_lookup h)

/-- A get finds no row, an expired row, or a hit. -/
theorem get_cases (state : MemoryState) (key : CacheKey) (nowMs : Nat) :
    state.rows.lookup key = none ∧ state.get key nowMs = (none, state) ∨
    state.Expired key nowMs ∧
      state.get key nowMs = (none, ⟨remove state.rows key, state.order⟩) ∨
    ∃ entry, state.rows.lookup key = some entry ∧ nowMs < entry.expiresAtMs ∧
      state.get key nowMs = (some entry.value, ⟨state.rows, touch key state.order⟩) := by
  cases hrow : state.rows.lookup key with
  | none =>
    refine .inl ⟨rfl, ?_⟩
    simp [get, hrow]
  | some entry =>
    by_cases hexpired : entry.expiresAtMs ≤ nowMs
    · refine .inr (.inl ⟨⟨entry, hrow, hexpired⟩, ?_⟩)
      have hgone : (remove state.rows key).lookup key = none := by
        apply lookup_eq_none
        intro h
        exact (mem_keys_remove.mp h).2 rfl
      simp [get, hrow, hexpired, hgone]
    · refine .inr (.inr ⟨entry, rfl, Nat.lt_of_not_le hexpired, ?_⟩)
      simp [get, hrow, hexpired]

/-- The order has every key of the rows once, in the order of their uses, and the rows hold what was
last put. -/
structure Sound (used : List CacheKey) (last : CacheKey → Option Entry) (state : MemoryState) :
    Prop where
  rows : state.keys.Nodup
  order : state.order.Nodup
  listed : state.keys ⊆ state.order
  recent : Recent used state.order
  last : ∀ row ∈ state.rows, last row.1 = some row.2

/-- The rows have all keys of the order, and a value that has been put and has no row has been
evicted. -/
structure Full (capacity : Nat) (used : List CacheKey) (last : CacheKey → Option Entry)
    (state : MemoryState) : Prop where
  rows : state.order ⊆ state.keys
  evicted : ∀ key entry, last key = some entry → key ∉ state.keys → capacity ≤ others used key

section
variable {used : List CacheKey} {last : CacheKey → Option Entry}
  {rows : List (CacheKey × Entry)} {order : List CacheKey}

theorem Sound.pop {oldest : CacheKey} (h : Sound used last ⟨rows, oldest :: order⟩) :
    Sound used last ⟨remove rows oldest, order⟩ where
  rows := nodup_filter h.rows _
  order := (List.nodup_cons.mp h.order).2
  listed key hkey := by
    obtain ⟨hrow, hne⟩ := mem_keys_remove.mp hkey
    exact (List.mem_cons.mp (h.listed hrow)).resolve_left hne
  recent := (List.pairwise_cons.mp h.recent).2
  last row hrow := h.last row (mem_remove.mp hrow).1

theorem Full.pop {oldest : CacheKey} (hs : Sound used last ⟨rows, oldest :: order⟩)
    (h : Full capacity used last ⟨rows, oldest :: order⟩) (hlt : capacity < rows.length) :
    Full capacity used last ⟨remove rows oldest, order⟩ where
  rows key hkey := by
    refine mem_keys_remove.mpr ⟨h.rows (List.mem_cons_of_mem _ hkey), ?_⟩
    rintro rfl
    exact (List.nodup_cons.mp hs.order).1 hkey
  evicted key entry hlast hgone := by
    by_cases hkey : key = oldest
    · have hlen := hs.recent.length_le hs.rows hs.listed
      rw [keys, List.length_map] at hlen
      rw [hkey]
      exact Nat.le_of_lt_succ (hlt.trans_le hlen)
    · exact h.evicted key entry hlast fun hrow => hgone (mem_keys_remove.mpr ⟨hrow, hkey⟩)

/-- Eviction ends, keeps the order sound, and leaves no more rows than the capacity. -/
theorem Sound.evict (capacity : Nat) : ∀ {order : List CacheKey} {rows : List (CacheKey × Entry)},
    Sound used last ⟨rows, order⟩ →
      EvictLoop capacity ⟨rows, order⟩ (evict capacity rows order) ∧
      Sound used last (evict capacity rows order) ∧
      (MemoryState.evict capacity rows order).rows.length ≤ capacity ∧
      (Full capacity used last ⟨rows, order⟩ →
        Full capacity used last (MemoryState.evict capacity rows order))
  | [], rows, h => by
    have hrows : rows = [] := List.map_eq_nil_iff.mp (List.subset_nil.mp h.listed)
    subst hrows
    exact ⟨.done (Nat.not_lt_zero _), h, Nat.zero_le _, fun hfull => hfull⟩
  | oldest :: order, rows, h => by
    rw [MemoryState.evict]
    split
    · rename_i hlt
      obtain ⟨hloop, hsound, hlen, hfull⟩ := Sound.evict capacity h.pop
      exact ⟨.pop hlt hloop, hsound, hlen, fun hf => hfull (hf.pop h hlt)⟩
    · rename_i hlt
      exact ⟨.done hlt, h, Nat.le_of_not_lt hlt, fun hf => hf⟩

theorem Sound.touch {state : MemoryState} (h : Sound used last state) (key : CacheKey) :
    Sound (key :: used) last ⟨state.rows, touch key state.order⟩ where
  rows := h.rows
  order := nodup_touch h.order
  listed _ hk := mem_touch.mpr (.inr (h.listed hk))
  recent := h.recent.touch key
  last := h.last

theorem Sound.expire {state : MemoryState} (h : Sound used last state) (key : CacheKey) :
    Sound used last ⟨remove state.rows key, state.order⟩ where
  rows := nodup_filter h.rows _
  order := h.order
  listed _ hk := h.listed (mem_keys_remove.mp hk).1
  recent := h.recent
  last row hrow := h.last row (mem_remove.mp hrow).1

theorem Sound.inserted {state : MemoryState} (h : Sound used last state) (key : CacheKey)
    (value : OpenaiServer.Json) (expiresAtMs : Nat) :
    Sound (key :: used) (fun k => if key = k then some ⟨value, expiresAtMs⟩ else last k)
      (state.inserted key value expiresAtMs) where
  rows := by
    refine List.nodup_cons.mpr ⟨fun hkey => (mem_keys_remove.mp hkey).2 rfl, ?_⟩
    exact nodup_filter h.rows _
  order := nodup_touch h.order
  listed k hk := by
    rcases List.mem_cons.mp hk with rfl | hk
    · exact mem_touch.mpr (.inl rfl)
    · exact mem_touch.mpr (.inr (h.listed (mem_keys_remove.mp hk).1))
  recent := h.recent.touch key
  last row hrow := by
    rcases List.mem_cons.mp hrow with rfl | hrow
    · exact if_pos rfl
    · obtain ⟨hrow, hne⟩ := mem_remove.mp hrow
      exact (if_neg hne.symm).trans (h.last row hrow)

theorem Sound.clearEndpoint {state : MemoryState} (h : Sound used last state)
    (endpoint : EndpointIdentity) :
    Sound used (fun k => if k.endpoint = endpoint then none else last k)
      (state.clearEndpoint endpoint) where
  rows := nodup_filter h.rows _
  order := h.order.filter _
  listed k hk := by
    obtain ⟨row, hrow, rfl⟩ := List.mem_map.mp hk
    obtain ⟨hrow, hne⟩ := List.mem_filter.mp hrow
    exact List.mem_filter.mpr ⟨h.listed (List.mem_map_of_mem hrow), hne⟩
  recent := h.recent.filter _
  last row hrow := by
    obtain ⟨hrow, hne⟩ := List.mem_filter.mp hrow
    exact (if_neg (of_decide_eq_true hne)).trans (h.last row hrow)

theorem Full.touch {state : MemoryState} (h : Full capacity used last state) {key : CacheKey}
    (hkey : key ∈ state.keys) :
    Full capacity (key :: used) last ⟨state.rows, Recency.touch key state.order⟩ where
  rows k hk := by
    rcases mem_touch.mp hk with rfl | hk
    · exact hkey
    · exact h.rows hk
  evicted k entry hlast hgone := by
    have hne : key ≠ k := by
      rintro rfl
      exact hgone hkey
    exact (h.evicted k entry hlast hgone).trans (others_le_of_subset (since_subset_cons hne))

theorem Full.inserted {state : MemoryState} (h : Full capacity used last state) (key : CacheKey)
    (value : OpenaiServer.Json) (expiresAtMs : Nat) :
    Full capacity (key :: used) (fun k => if key = k then some ⟨value, expiresAtMs⟩ else last k)
      (state.inserted key value expiresAtMs) where
  rows k hk := by
    by_cases hkey : k = key
    · exact hkey ▸ List.mem_cons_self
    · have hold := (mem_touch.mp hk).resolve_left hkey
      exact List.mem_cons_of_mem _ (mem_keys_remove.mpr ⟨h.rows hold, hkey⟩)
  evicted k entry hlast hgone := by
    have hne : key ≠ k := by
      rintro rfl
      exact hgone List.mem_cons_self
    have hold : k ∉ state.keys := fun hk =>
      hgone (List.mem_cons_of_mem _ (mem_keys_remove.mpr ⟨hk, hne.symm⟩))
    rw [if_neg hne] at hlast
    exact (h.evicted k entry hlast hold).trans (others_le_of_subset (since_subset_cons hne))

theorem Full.clearEndpoint {state : MemoryState} (h : Full capacity used last state)
    (endpoint : EndpointIdentity) :
    Full capacity used (fun k => if k.endpoint = endpoint then none else last k)
      (state.clearEndpoint endpoint) where
  rows k hk := by
    obtain ⟨hk, hne⟩ := List.mem_filter.mp hk
    obtain ⟨row, hrow, rfl⟩ := List.mem_map.mp (h.rows hk)
    exact List.mem_map_of_mem (List.mem_filter.mpr ⟨hrow, hne⟩)
  evicted k entry hlast hgone := by
    have hne : k.endpoint ≠ endpoint := by
      intro he
      rw [if_pos he] at hlast
      cases hlast
    rw [if_neg hne] at hlast
    refine h.evicted k entry hlast fun hk => hgone ?_
    obtain ⟨row, hrow, rfl⟩ := List.mem_map.mp hk
    exact List.mem_map_of_mem (List.mem_filter.mpr ⟨hrow, decide_eq_true hne⟩)

end

/-! ## Runs -/

section
variable {capacity : Nat}

theorem uses_get_none {earlier : List CacheCall} {key : CacheKey} {nowMs : Nat}
    (h : ((after capacity earlier).get key nowMs).1 = none) :
    uses capacity (.get key nowMs :: earlier) = uses capacity earlier := by
  rw [uses, h]
  rfl

theorem uses_get_some {earlier : List CacheCall} {key : CacheKey} {nowMs : Nat}
    {value : OpenaiServer.Json} (h : ((after capacity earlier).get key nowMs).1 = some value) :
    uses capacity (.get key nowMs :: earlier) = key :: uses capacity earlier := by
  rw [uses, h]
  rfl

theorem after_get {earlier : List CacheCall} {key : CacheKey} {nowMs : Nat} :
    after capacity (.get key nowMs :: earlier) = ((after capacity earlier).get key nowMs).2 := rfl

/-- After every run the order is sound and there are no more rows than the capacity. -/
theorem sound_after (capacity : Nat) (calls : List CacheCall) :
    Sound (uses capacity calls) (lastPut · calls) (after capacity calls) ∧
      (after capacity calls).rows.length ≤ capacity := by
  induction calls with
  | nil =>
    refine ⟨⟨List.nodup_nil, List.nodup_nil, fun _ h => h, List.Pairwise.nil, ?_⟩, Nat.zero_le _⟩
    intro row hrow
    cases hrow
  | cons call earlier ih =>
    obtain ⟨hsound, hlen⟩ := ih
    cases call with
    | get key nowMs =>
      rcases get_cases (after capacity earlier) key nowMs with
        ⟨-, hget⟩ | ⟨-, hget⟩ | ⟨entry, -, -, hget⟩
      · rw [uses_get_none (by rw [hget]), after_get, hget]
        exact ⟨hsound, hlen⟩
      · rw [uses_get_none (by rw [hget]), after_get, hget]
        exact ⟨hsound.expire key, (List.length_filter_le _ _).trans hlen⟩
      · rw [uses_get_some (by rw [hget]), after_get, hget]
        exact ⟨hsound.touch key, hlen⟩
    | put key value expiresAtMs =>
      obtain ⟨-, hsound, hlen, -⟩ := (hsound.inserted key value expiresAtMs).evict capacity
      exact ⟨hsound, hlen⟩
    | clearEndpoint endpoint =>
      exact ⟨hsound.clearEndpoint endpoint, (List.length_filter_le _ _).trans hlen⟩

/-- No get of the run finds its key in an expired row. -/
def Fresh (capacity : Nat) (calls : List CacheCall) : Prop :=
  ∀ key nowMs earlier, .get key nowMs :: earlier <:+ calls →
    ¬(after capacity earlier).Expired key nowMs

/-- While no get finds its key expired, the rows have every key of the order. -/
theorem full_after {calls : List CacheCall} (h : Fresh capacity calls) :
    Full capacity (uses capacity calls) (lastPut · calls) (after capacity calls) := by
  induction calls with
  | nil =>
    refine ⟨fun _ h => h, ?_⟩
    intro key entry hlast
    cases hlast
  | cons call earlier ih =>
    have hfull := ih fun key nowMs before hb => h key nowMs before (hb.trans (List.suffix_cons _ _))
    have hsound := (sound_after capacity earlier).1
    cases call with
    | get key nowMs =>
      rcases get_cases (after capacity earlier) key nowMs with
        ⟨-, hget⟩ | ⟨hexpired, -⟩ | ⟨entry, hrow, -, hget⟩
      · rw [uses_get_none (by rw [hget]), after_get, hget]
        exact hfull
      · exact absurd hexpired (h key nowMs earlier List.suffix_rfl)
      · rw [uses_get_some (by rw [hget]), after_get, hget]
        exact hfull.touch (mem_keys_of_lookup hrow)
    | put key value expiresAtMs =>
      obtain ⟨-, -, -, hkeeps⟩ := (hsound.inserted key value expiresAtMs).evict capacity
      exact hkeeps (hfull.inserted key value expiresAtMs)
    | clearEndpoint endpoint => exact hfull.clearEndpoint endpoint

theorem exact_of_full {calls : List CacheCall}
    (h : Full capacity (uses capacity calls) (lastPut · calls) (after capacity calls)) :
    ExactLru capacity calls := by
  obtain ⟨hsound, hlen⟩ := sound_after capacity calls
  refine ⟨⟨hsound.order, fun key => ⟨fun hk => h.rows hk, fun hk => hsound.listed hk⟩, ?_⟩,
    ?_, ?_, ?_⟩
  · have horder := (hsound.order.subperm h.rows).length_le
    rw [keys, List.length_map] at horder
    exact horder.trans hlen
  · intro key value expiresAtMs
    exact ((hsound.inserted key value expiresAtMs).evict capacity).1
  · intro key nowMs value hvalue
    rcases get_cases (after capacity calls) key nowMs with
      ⟨-, hget⟩ | ⟨-, hget⟩ | ⟨entry, hrow, hlt, hget⟩
    · rw [hget] at hvalue
      cases hvalue
    · rw [hget] at hvalue
      cases hvalue
    · rw [hget] at hvalue
      exact ⟨entry, hsound.last _ (mem_of_lookup hrow), Option.some.inj hvalue, hlt⟩
  · intro key nowMs entry hnone hlast hlt
    rcases get_cases (after capacity calls) key nowMs with
      ⟨hrow, -⟩ | ⟨⟨old, hrow, hle⟩, -⟩ | ⟨old, -, -, hget⟩
    · refine h.evicted key entry hlast fun hk => ?_
      obtain ⟨row, hmem, rfl⟩ := List.mem_map.mp hk
      exact absurd rfl (bne_iff_ne.mp (List.lookup_eq_none_iff.mp hrow row hmem))
    · have hold := hsound.last _ (mem_of_lookup hrow)
      rw [hlast] at hold
      cases hold
      exact absurd hlt (Nat.not_lt_of_le hle)
    · rw [hget] at hnone
      cases hnone

/-- A get that finds its key expired leaves the key in the order and not in the rows. -/
theorem not_balanced_of_expired {earlier : List CacheCall} {key : CacheKey} {nowMs : Nat}
    (h : (after capacity earlier).Expired key nowMs) :
    ¬(after capacity (.get key nowMs :: earlier)).Balanced capacity := by
  intro hb
  obtain ⟨entry, hrow, hle⟩ := h
  rcases get_cases (after capacity earlier) key nowMs with
    ⟨hnone, -⟩ | ⟨-, hget⟩ | ⟨old, hold, hlt, -⟩
  · rw [hrow] at hnone
    cases hnone
  · have hlisted := (sound_after capacity earlier).1.listed (mem_keys_of_lookup hrow)
    rw [after_get, hget] at hb
    exact (mem_keys_remove.mp ((hb.mem_iff key).mp hlisted)).2 rfl
  · rw [hrow] at hold
    cases hold
    exact Nat.not_lt_of_le hle hlt

end

/-- The cache is an exact LRU throughout a run precisely when no get of the run finds its key in an
expired row. -/
theorem exactLru_iff (capacity : Nat) (calls : List CacheCall) :
    (∀ earlier, earlier <:+ calls → ExactLru capacity earlier) ↔
      ∀ key nowMs earlier, .get key nowMs :: earlier <:+ calls →
        ¬(after capacity earlier).Expired key nowMs := by
  constructor
  · intro h key nowMs earlier hsuffix hexpired
    exact not_balanced_of_expired hexpired (h _ hsuffix).balanced
  · intro h earlier hsuffix
    apply exact_of_full
    apply full_after
    intro key nowMs before hb
    exact h key nowMs before (hb.trans hsuffix)

namespace LruSample

def key : CacheKey where
  endpoint := .processInstance "1"
  era := .modern
  version := "1"
  principalScope := ""
  extensions := []
  method := "tools/list"
  canonicalParameters := "\x7b\x7d"
  paginationCursor := none

end LruSample

/-- A get of an expired value leaves the key of no row in the order. -/
theorem expired_get_unbalances :
    ¬∀ (capacity : Nat) (calls : List CacheCall), 1 ≤ capacity → ExactLru capacity calls := by
  intro h
  have hb := (h 1 [.get LruSample.key 5, .put LruSample.key .null 5] (le_refl 1)).balanced
  have hmem := (hb.mem_iff LruSample.key).mp (by decide)
  revert hmem
  decide

end MemoryState

end SimAgentNet.McpClient
