import SimAgentNet.StreamFabric.Cassette

/-! # The content-addressed fleet

Nodes that answer a request from their own cassette, from the cassettes of their peers, or from a
home fabric, in this order, and record what they did not hold. Every peer is asked before a home
fabric computes, and a cassette keeps the first reply for a key, so the fleet holds one reply per
key. -/

namespace SimAgentNet.StreamFabric

structure HeldContent where
  holder : Symbol
  key : ContentKey

/-- Which nodes are announced as holders of which keys. -/
abbrev HoldingIndex := SortedMap ContentKey (SortedSet Symbol)

namespace HoldingIndex

def announce (index : HoldingIndex) (fact : HeldContent) : HoldingIndex :=
  index.insert fact.key (((index.get? fact.key).getD ∅).insert fact.holder)

/-- The announced holders in symbol order. -/
def holdersOf (index : HoldingIndex) (key : ContentKey) : List Symbol :=
  ((index.get? key).map SortedSet.elems).getD []

def merge (index other : HoldingIndex) : HoldingIndex :=
  other.entries.foldl (fun holders e => holders.insert e.1 ((holders.get? e.1).getD ∅ ∪ e.2)) index

theorem mem_holdersOf {index : HoldingIndex} :
    a ∈ index.holdersOf key ↔ a ∈ (index.get? key).getD ∅ := by
  simp only [holdersOf]
  cases index.get? key with
  | none => exact ⟨nofun, nofun⟩
  | some holders => exact .rfl

theorem mem_holdersOf_announce {index : HoldingIndex} {fact : HeldContent} :
    a ∈ (index.announce fact).holdersOf key ↔
      a ∈ index.holdersOf key ∨ key = fact.key ∧ a = fact.holder := by
  simp only [mem_holdersOf, announce, SortedMap.get?_insert]
  split
  · rename_i h
    subst h
    simp [or_comm]
  · rename_i h
    simp [h]

/-- Merging only adds facts. -/
theorem mem_holdersOf_merge {index other : HoldingIndex} (h : a ∈ index.holdersOf key) :
    a ∈ (index.merge other).holdersOf key := by
  simp only [merge]
  induction other.entries generalizing index with
  | nil => exact h
  | cons e es ih =>
    refine ih ?_
    rw [mem_holdersOf] at h ⊢
    rw [SortedMap.get?_insert]
    split
    · rename_i hk
      subst hk
      exact SortedSet.mem_union.mpr (.inl h)
    · exact h

end HoldingIndex

section Fabrics
variable {ι κ Mode Reply : Type}

/-- A peer: its announced name, and the node whose cassette its serve fabric reads. -/
structure ContentPeer (ι : Type) where
  node : Symbol
  serve : ι

/-- A node: its name, its peers, whether it has a home fabric, and the index it announces to.
Nodes may share an index. Its local cassette goes by the node. -/
structure ContentAddressedFabric (ι κ : Type) where
  node : Symbol
  peers : List (ContentPeer ι)
  home : Bool
  holders : κ

/-- The cassettes with their ledgers, the holder indexes, and what the home fabrics have returned
so far. -/
structure Fleet (ι κ Reply : Type) where
  ledgers : ι → EffectLedgerCassette Reply
  caches : ι → Cache Reply
  indexes : κ → HoldingIndex
  homeCalls : List (ContentKey × Except String Reply)

def Fleet.start (ledgers : ι → EffectLedgerCassette Reply) (caches : ι → Cache Reply)
    (indexes : κ → HoldingIndex) : Fleet ι κ Reply := ⟨ledgers, caches, indexes, []⟩

/-- A serve fabric answers what its cassette holds. -/
def ContentServeFabric.realize (kernel : KernelApi Mode) (cassette : Cache Reply)
    (request : EvalRequest Mode) : Except (Halt String) Reply := do
  let key ← ContentKey.fromRequest kernel request
  match EvalCassette.get cassette key with
  | some reply => .ok reply
  | none => .error (.failure "content not held by this node")

namespace ContentAddressedFabric

/-- The peers in the order they are asked: announced holders first, then the rest. -/
def orderedPeers (self : ContentAddressedFabric ι κ) (announced : List Symbol) :
    List (ContentPeer ι) :=
  announced.filterMap (fun holder =>
    if holder = self.node then none else self.peers.find? (·.node = holder)) ++
  self.peers.filter fun peer => ¬(peer.node = self.node ∨ peer.node ∈ announced)

variable [DecidableEq ι] [DecidableEq κ] (kernel : KernelApi Mode)

/-- The reply of the first peer that serves the request. -/
def askPeers (caches : ι → Cache Reply) (request : EvalRequest Mode) :
    List (ContentPeer ι) → Option Reply
  | [] => none
  | peer :: peers =>
    match ContentServeFabric.realize kernel (caches peer.serve) request with
    | .ok reply => some reply
    | .error _ => askPeers caches request peers

/-- Records a reply in the local cassette of node `i` and announces the node as its holder. -/
def recordLocalHold (self : ContentAddressedFabric ι κ) (i : ι) (key : ContentKey) (reply : Reply) :
    Effect (Halt String) (Fleet ι κ Reply) Unit := do
  let s ← Effect.get
  let (ledger, cache) ← .ofExcept (EvalCassette.record kernel (s.ledgers i) (s.caches i) key reply)
  .modify fun s => { s with
    ledgers := Function.update s.ledgers i ledger
    caches := Function.update s.caches i cache }
  .modify fun s => { s with
    indexes := Function.update s.indexes self.holders
      ((s.indexes self.holders).announce ⟨self.node, key⟩) }

/-- Realizes a request at node `i`. `home` is what the home fabric returns if it is called. -/
def realize (self : ContentAddressedFabric ι κ) (i : ι) (request : EvalRequest Mode)
    (home : Except String Reply) : Effect (Halt String) (Fleet ι κ Reply) Reply := do
  let key ← .ofExcept (ContentKey.fromRequest kernel request)
  let s ← Effect.get
  match EvalCassette.get (s.caches i) key with
  | some reply => return reply
  | none =>
    let announced := (s.indexes self.holders).holdersOf key
    match askPeers kernel s.caches request (self.orderedPeers announced) with
    | some reply =>
      self.recordLocalHold kernel i key reply
      return reply
    | none =>
      if self.home then
        .modify fun s => { s with homeCalls := s.homeCalls ++ [(key, home)] }
        let reply ← .ofExcept (home.mapError .failure)
        self.recordLocalHold kernel i key reply
        return reply
      else
        .fail (.failure "no holder for content id and no home compute site")

end ContentAddressedFabric

/-- Nodes with distinct names, each with exactly one peer over the cassette of each other node,
under that node's name. -/
structure Wired (net : ι → ContentAddressedFabric ι κ) : Prop where
  distinct : ∀ i j, (net i).node = (net j).node → i = j
  named : ∀ i, ∀ peer ∈ (net i).peers, peer.node = (net peer.serve).node
  peers_nodup : ∀ i, ((net i).peers.map (·.serve)).Nodup
  peers_others : ∀ i j, j ∈ (net i).peers.map (·.serve) ↔ j ≠ i

/-- The kernel has a content id for the datum of every content key. -/
def KernelApi.KeysCanonical (kernel : KernelApi Mode) : Prop :=
  ∀ key : ContentKey, ∃ id, kernel.contentId key.datum = .ok id

/-! ## What one realize call does -/

section Realize
open ContentAddressedFabric
variable {net : ι → ContentAddressedFabric ι κ} {kernel : KernelApi Mode}
  {request : EvalRequest Mode} {key : ContentKey} {caches : ι → Cache Reply}
  {peers : List (ContentPeer ι)}

theorem realize_serve (hkey : ContentKey.fromRequest kernel request = .ok key) (cache : Cache Reply) :
    ContentServeFabric.realize kernel cache request =
      match cache.get? key with
      | some reply => .ok reply
      | none => .error (.failure "content not held by this node") := by
  simp only [ContentServeFabric.realize, hkey, Except.ok_bind]
  rfl

theorem askPeers_eq_some (hkey : ContentKey.fromRequest kernel request = .ok key)
    (h : askPeers kernel caches request peers = some reply) :
    ∃ peer ∈ peers, (caches peer.serve).get? key = some reply := by
  induction peers with
  | nil => cases h
  | cons peer peers ih =>
    rw [askPeers, realize_serve hkey] at h
    cases hget : (caches peer.serve).get? key with
    | some r =>
      rw [hget] at h
      cases h
      exact ⟨peer, List.mem_cons_self, hget⟩
    | none =>
      rw [hget] at h
      obtain ⟨peer', hmem, hr⟩ := ih h
      exact ⟨peer', List.mem_cons_of_mem _ hmem, hr⟩

theorem askPeers_eq_none (hkey : ContentKey.fromRequest kernel request = .ok key)
    (h : askPeers kernel caches request peers = none) :
    ∀ peer ∈ peers, (caches peer.serve).get? key = none := by
  induction peers with
  | nil => exact nofun
  | cons peer peers ih =>
    rw [askPeers, realize_serve hkey] at h
    cases hget : (caches peer.serve).get? key with
    | some r =>
      rw [hget] at h
      cases h
    | none =>
      rw [hget] at h
      exact List.forall_mem_cons.mpr ⟨hget, ih h⟩

theorem mem_peers_of_mem_orderedPeers {fabric : ContentAddressedFabric ι κ}
    (h : peer ∈ fabric.orderedPeers announced) : peer ∈ fabric.peers := by
  rcases List.mem_append.mp h with h | h
  · obtain ⟨holder, -, hfind⟩ := List.mem_filterMap.mp h
    split at hfind
    · cases hfind
    · exact List.mem_of_find?_eq_some hfind
  · exact (List.mem_filter.mp h).1

/-- Whatever the index says, every other node is asked. -/
theorem Wired.asked (hw : Wired net) (hne : j ≠ i) (announced : List Symbol) :
    ∃ peer ∈ (net i).orderedPeers announced, peer.serve = j := by
  obtain ⟨peer, hmem, rfl⟩ := List.mem_map.mp ((hw.peers_others i j).mpr hne)
  have hself : peer.node ≠ (net i).node := fun h =>
    hne (hw.distinct _ _ ((hw.named i peer hmem).symm.trans h))
  by_cases ha : peer.node ∈ announced
  · -- the peer found under an announced name reads the same cassette
    have hsome : ((net i).peers.find? (·.node = peer.node)).isSome :=
      List.find?_isSome.mpr ⟨peer, hmem, decide_eq_true rfl⟩
    obtain ⟨found, hfind⟩ := Option.isSome_iff_exists.mp hsome
    have hname : found.node = peer.node := by simpa using List.find?_some hfind
    have hfound := List.mem_of_find?_eq_some hfind
    refine ⟨found, List.mem_append_left _ (List.mem_filterMap.mpr ⟨peer.node, ha, ?_⟩), ?_⟩
    · rw [if_neg hself, hfind]
    · refine hw.distinct _ _ ?_
      rw [← hw.named i found hfound, ← hw.named i peer hmem, hname]
  · refine ⟨peer, List.mem_append_right _ (List.mem_filter.mpr ⟨hmem, ?_⟩), rfl⟩
    exact decide_eq_true (not_or.mpr ⟨hself, ha⟩)

variable [DecidableEq ι] [DecidableEq κ]

/-- The fleet after node `i`, which did not hold the key, has recorded a reply for it. -/
def Fleet.hold (s : Fleet ι κ Reply) (fabric : ContentAddressedFabric ι κ) (i : ι)
    (key : ContentKey) (reply : Reply) (ledger : EffectLedgerCassette Reply) : Fleet ι κ Reply :=
  { s with
    ledgers := Function.update s.ledgers i ledger
    caches := Function.update s.caches i ((s.caches i).insert key reply)
    indexes := Function.update s.indexes fabric.holders
      ((s.indexes fabric.holders).announce ⟨fabric.node, key⟩) }

/-- The fleet after a home fabric was called. -/
def Fleet.called (s : Fleet ι κ Reply) (key : ContentKey) (home : Except String Reply) :
    Fleet ι κ Reply := { s with homeCalls := s.homeCalls ++ [(key, home)] }

theorem recordLocalHold_new (hk : kernel.KeysCanonical) {s : Fleet ι κ Reply}
    (hnone : (s.caches i).get? key = none) (fabric : ContentAddressedFabric ι κ) (reply : Reply) :
    ∃ ledger, fabric.recordLocalHold kernel i key reply s =
      (.ok (), s.hold fabric i key reply ledger) := by
  obtain ⟨id, hid⟩ := hk key
  have hkeyId : contentKeyId kernel key = .ok id := by rw [contentKeyId, hid]; rfl
  obtain ⟨ledger, ha⟩ := @EffectLedgerCassette.appendEvalResult_isOk _ _ kernel (s.ledgers i) key
    reply id hkeyId
  refine ⟨ledger, ?_⟩
  have hr : EvalCassette.record kernel (s.ledgers i) (s.caches i) key reply =
      .ok (ledger, (s.caches i).insert key reply) := by
    rw [EvalCassette.record_new hnone, ha]
    rfl
  simp only [recordLocalHold, Effect.bind_apply, Effect.get_apply, Effect.ofExcept_apply, hr,
    Effect.modify_apply, Fleet.hold]

/-- The ways a realize call can end at node `i`. -/
inductive Realized (kernel : KernelApi Mode) (net : ι → ContentAddressedFabric ι κ) (i : ι)
    (request : EvalRequest Mode) (home : Except String Reply) (s : Fleet ι κ Reply) :
    Except (Halt String) Reply → Fleet ι κ Reply → Prop
  | unkeyed (h : ContentKey.fromRequest kernel request = .error e) :
    Realized kernel net i request home s (.error e) s
  | held {key : ContentKey} {reply : Reply}
      (hkey : ContentKey.fromRequest kernel request = .ok key)
      (h : (s.caches i).get? key = some reply) :
    Realized kernel net i request home s (.ok reply) s
  | peer {key : ContentKey} {reply : Reply}
      (hkey : ContentKey.fromRequest kernel request = .ok key)
      (hnone : (s.caches i).get? key = none) (j : ι) (h : (s.caches j).get? key = some reply)
      (ledger : EffectLedgerCassette Reply) :
    Realized kernel net i request home s (.ok reply) (s.hold (net i) i key reply ledger)
  | computed {key : ContentKey} {reply : Reply}
      (hkey : ContentKey.fromRequest kernel request = .ok key)
      (hnone : ∀ j, (s.caches j).get? key = none) (hhome : home = .ok reply)
      (ledger : EffectLedgerCassette Reply) :
    Realized kernel net i request home s (.ok reply)
      ((s.called key home).hold (net i) i key reply ledger)
  | failed {key : ContentKey} {e : String}
      (hkey : ContentKey.fromRequest kernel request = .ok key) (hhome : home = .error e) :
    Realized kernel net i request home s (.error (.failure e)) (s.called key home)
  | unheld : Realized kernel net i request home s
      (.error (.failure "no holder for content id and no home compute site")) s

theorem realize_realized (hk : kernel.KeysCanonical) (hw : Wired net) (i : ι)
    (request : EvalRequest Mode) (home : Except String Reply) (s : Fleet ι κ Reply) :
    Realized kernel net i request home s ((net i).realize kernel i request home s).1
      ((net i).realize kernel i request home s).2 := by
  simp only [realize, Effect.bind_apply, Effect.ofExcept_apply]
  cases hkey : ContentKey.fromRequest kernel request with
  | error e => exact .unkeyed hkey
  | ok key =>
    simp only [Effect.get_apply, EvalCassette.get]
    cases hget : (s.caches i).get? key with
    | some reply => exact .held hkey hget
    | none =>
      dsimp only
      cases hask : askPeers kernel s.caches request
          ((net i).orderedPeers ((s.indexes (net i).holders).holdersOf key)) with
      | some reply =>
        obtain ⟨peer, -, hr⟩ := askPeers_eq_some hkey hask
        obtain ⟨ledger, hrec⟩ := recordLocalHold_new hk hget (net i) reply
        simp only [Effect.bind_apply, hrec]
        exact .peer hkey hget peer.serve hr ledger
      | none =>
        have hnone : ∀ j, (s.caches j).get? key = none := by
          intro j
          by_cases hij : j = i
          · rw [hij, hget]
          · obtain ⟨peer, hmem, rfl⟩ := hw.asked hij _
            exact askPeers_eq_none hkey hask peer hmem
        dsimp only
        split
        · cases hhome : home with
          | error e => exact .failed hkey rfl
          | ok reply =>
            have hget' : ((s.called key (.ok reply)).caches i).get? key = none := hget
            obtain ⟨ledger, hrec⟩ := recordLocalHold_new hk hget' (net i) reply
            simp only [Fleet.called] at hrec
            simp only [Effect.bind_apply, Effect.modify_apply, Effect.ofExcept_apply,
              Except.mapError, hrec]
            exact .computed hkey hnone rfl ledger
        · exact .unheld

end Realize

/-! ## Runs of the fleet -/

/-- A call on the fleet: a request at a node, with what its home fabric returns if it is called, or
an exchange of holder facts. -/
inductive FleetCall (ι κ Mode Reply : Type) where
  | realize (node : ι) (request : EvalRequest Mode) (home : Except String Reply)
  | announce (index : κ) (fact : HeldContent)
  | merge (index other : κ)

/-- What a node answered, and whether its own cassette did not hold the key before. -/
structure Answer (ι Mode Reply : Type) where
  node : ι
  request : EvalRequest Mode
  missed : Bool
  result : Except (Halt String) Reply

section Runs
variable [DecidableEq ι] [DecidableEq κ] (kernel : KernelApi Mode)
  (net : ι → ContentAddressedFabric ι κ)

/-- The node's own cassette does not hold the key of the request. -/
def Fleet.misses (s : Fleet ι κ Reply) (i : ι) (request : EvalRequest Mode) : Bool :=
  match ContentKey.fromRequest kernel request with
  | .ok key => (EvalCassette.get (s.caches i) key).isNone
  | .error _ => false

def Fleet.step (s : Fleet ι κ Reply) :
    FleetCall ι κ Mode Reply → Fleet ι κ Reply × List (Answer ι Mode Reply)
  | .realize i request home =>
    let (result, s') := (net i).realize kernel i request home s
    (s', [⟨i, request, s.misses kernel i request, result⟩])
  | .announce index fact =>
    ({ s with indexes := Function.update s.indexes index ((s.indexes index).announce fact) }, [])
  | .merge index other =>
    ({ s with indexes :=
        Function.update s.indexes index ((s.indexes index).merge (s.indexes other)) }, [])

/-- The state and the answers after a sequence of calls. -/
def Fleet.run (s : Fleet ι κ Reply) (calls : List (FleetCall ι κ Mode Reply)) :
    Fleet ι κ Reply × List (Answer ι Mode Reply) :=
  calls.foldl (fun (s, answers) call =>
    ((s.step kernel net call).1, answers ++ (s.step kernel net call).2)) (s, [])

/-- How often home fabrics have computed a key. -/
def Fleet.computations (s : Fleet ι κ Reply) (key : ContentKey) : Nat :=
  s.homeCalls.countP fun call => call.1 = key ∧ call.2.isOk

/-- Any two nodes that hold a key hold the same reply. -/
def Fleet.Agrees (s : Fleet ι κ Reply) : Prop :=
  ∀ i j key reply reply', EvalCassette.get (s.caches i) key = some reply →
    EvalCassette.get (s.caches j) key = some reply' → reply = reply'

/-- What holds of a fleet and of the answers it has given. -/
structure Settled (s : Fleet ι κ Reply) (answers : List (Answer ι Mode Reply)) : Prop where
  agrees : s.Agrees
  /-- A node holds what it answered. -/
  answered : ∀ a ∈ answers, ∀ key reply, ContentKey.fromRequest kernel a.request = .ok key →
    a.result = .ok reply → (s.caches a.node).get? key = some reply
  announced : ∀ a ∈ answers, ∀ key reply, ContentKey.fromRequest kernel a.request = .ok key →
    a.result = .ok reply → a.missed →
      (net a.node).node ∈ (s.indexes (net a.node).holders).holdersOf key
  once : ∀ key, s.computations key ≤ 1
  /-- A computed key is held. -/
  kept : ∀ key, 0 < s.computations key → ∃ i reply, (s.caches i).get? key = some reply

variable {kernel : KernelApi Mode} {net : ι → ContentAddressedFabric ι κ}
  {s s' : Fleet ι κ Reply} {answers : List (Answer ι Mode Reply)}

/-- Held replies and holder facts stay. -/
structure Fleet.Grows (s s' : Fleet ι κ Reply) : Prop where
  caches : ∀ i key reply, (s.caches i).get? key = some reply → (s'.caches i).get? key = some reply
  indexes : ∀ k key a, a ∈ (s.indexes k).holdersOf key → a ∈ (s'.indexes k).holdersOf key

omit [DecidableEq ι] [DecidableEq κ] in
theorem Fleet.Grows.refl (s : Fleet ι κ Reply) : s.Grows s := ⟨fun _ _ _ h => h, fun _ _ _ h => h⟩

theorem get?_caches_hold {fabric : ContentAddressedFabric ι κ} :
    ((s.hold fabric i key reply ledger).caches j).get? key' =
      if j = i ∧ key' = key then some reply else (s.caches j).get? key' := by
  simp only [Fleet.hold]
  by_cases h : j = i
  · subst h
    by_cases hk : key' = key <;> simp [hk]
  · simp [h]

theorem Fleet.grows_hold (fabric : ContentAddressedFabric ι κ)
    (hnone : (s.caches i).get? key = none) : s.Grows (s.hold fabric i key reply ledger) := by
  constructor
  · intro j key' r h
    rw [get?_caches_hold, if_neg, h]
    rintro ⟨rfl, rfl⟩
    rw [hnone] at h
    cases h
  · intro k key' a h
    by_cases hk : k = fabric.holders
    · subst hk
      simp only [Fleet.hold, Function.update_self]
      exact HoldingIndex.mem_holdersOf_announce.mpr (.inl h)
    · simpa [Fleet.hold, Function.update_of_ne hk] using h

theorem mem_holdersOf_hold (fabric : ContentAddressedFabric ι κ) :
    fabric.node ∈ ((s.hold fabric i key reply ledger).indexes fabric.holders).holdersOf key := by
  simp only [Fleet.hold, Function.update_self]
  exact HoldingIndex.mem_holdersOf_announce.mpr (.inr ⟨rfl, rfl⟩)

/-- Recording the reply that every other holder has keeps the nodes agreed. -/
theorem Fleet.Agrees.hold (h : s.Agrees) (fabric : ContentAddressedFabric ι κ)
    (hsame : ∀ j r, (s.caches j).get? key = some r → r = reply) :
    (s.hold fabric i key reply ledger).Agrees := by
  have hreply : ∀ j r, ((s.hold fabric i key reply ledger).caches j).get? key = some r →
      r = reply := by
    intro j r hr
    rw [get?_caches_hold] at hr
    split at hr
    · exact (Option.some.inj hr).symm
    · exact hsame j r hr
  intro j j' key' r r' hr hr'
  by_cases hk : key' = key
  · subst hk
    rw [hreply j r hr, hreply j' r' hr']
  · refine h j j' key' r r' ?_ ?_
    · rwa [EvalCassette.get, get?_caches_hold, if_neg fun h => hk h.2] at hr
    · rwa [EvalCassette.get, get?_caches_hold, if_neg fun h => hk h.2] at hr'

omit [DecidableEq ι] [DecidableEq κ] in
/-- What a grown fleet has answered so far stays true of it. -/
theorem Settled.grow (h : Settled kernel net s answers) (hg : s.Grows s') (hagrees : s'.Agrees)
    (honce : ∀ key, s'.computations key ≤ 1)
    (hkept : ∀ key, 0 < s'.computations key → ∃ i reply, (s'.caches i).get? key = some reply)
    (hnew : ∀ a ∈ new, ∀ key reply, ContentKey.fromRequest kernel a.request = .ok key →
      a.result = .ok reply → (s'.caches a.node).get? key = some reply ∧
        (a.missed → (net a.node).node ∈ (s'.indexes (net a.node).holders).holdersOf key)) :
    Settled kernel net s' (answers ++ new) where
  agrees := hagrees
  answered a ha key reply hkey hr := by
    rcases List.mem_append.mp ha with ha | ha
    · exact hg.caches _ _ _ (h.answered a ha key reply hkey hr)
    · exact (hnew a ha key reply hkey hr).1
  announced a ha key reply hkey hr hm := by
    rcases List.mem_append.mp ha with ha | ha
    · exact hg.indexes _ _ _ (h.announced a ha key reply hkey hr hm)
    · exact (hnew a ha key reply hkey hr).2 hm
  once := honce
  kept := hkept

omit [DecidableEq ι] [DecidableEq κ] in
theorem computations_called (s : Fleet ι κ Reply) (key key' : ContentKey)
    (home : Except String Reply) :
    (s.called key home).computations key' =
      s.computations key' + if key = key' ∧ home.isOk then 1 else 0 := by
  simp only [Fleet.computations, Fleet.called, List.countP_append, List.countP_singleton,
    decide_eq_true_eq]

omit [DecidableEq ι] [DecidableEq κ] in
theorem Settled.uncomputed (h : Settled kernel net s answers)
    (hnone : ∀ j, (s.caches j).get? key = none) : s.computations key = 0 := by
  by_contra hpos
  obtain ⟨i, reply, hr⟩ := h.kept key (Nat.pos_of_ne_zero hpos)
  rw [hnone i] at hr
  cases hr

/-- A call at a node keeps the fleet settled, with its answer. -/
theorem Settled.realized (h : Settled kernel net s answers) (hm : s.misses kernel i request = missed)
    (hr : Realized kernel net i request home s result s') :
    Settled kernel net s' (answers ++ [⟨i, request, missed, result⟩]) := by
  cases hr with
  | unkeyed hkey =>
    refine h.grow (.refl s) h.agrees h.once h.kept ?_
    intro a ha key reply hok hres
    cases List.mem_singleton.mp ha
    cases hres
  | unheld =>
    refine h.grow (.refl s) h.agrees h.once h.kept ?_
    intro a ha key reply hok hres
    cases List.mem_singleton.mp ha
    cases hres
  | @held key reply hkey hget =>
    refine h.grow (.refl s) h.agrees h.once h.kept ?_
    intro a ha key' reply' hkey' hres
    cases List.mem_singleton.mp ha
    cases hres
    rw [hkey] at hkey'
    cases hkey'
    refine ⟨hget, fun hmiss => ?_⟩
    simp [← hm, Fleet.misses, hkey, EvalCassette.get, hget] at hmiss
  | @failed key e hkey hhome =>
    have hcount (key' : ContentKey) :
        (s.called key home).computations key' = s.computations key' := by
      rw [computations_called, hhome, if_neg (fun h => by cases h.2), Nat.add_zero]
    have hgrows : s.Grows (s.called key home) := ⟨fun _ _ _ h => h, fun _ _ _ h => h⟩
    refine h.grow hgrows h.agrees ?_ ?_ ?_
    · exact fun key' => hcount key' ▸ h.once key'
    · exact fun key' hpos => h.kept key' (hcount key' ▸ hpos)
    · intro a ha key' reply hok hres
      cases List.mem_singleton.mp ha
      cases hres
  | @peer key reply hkey hnone j hget ledger =>
    refine h.grow (Fleet.grows_hold (net i) hnone) ?_ h.once ?_ ?_
    · exact h.agrees.hold (net i) fun j' r hr => h.agrees j' j key r reply hr hget
    · intro key' hpos
      obtain ⟨j', r, hr⟩ := h.kept key' hpos
      exact ⟨j', r, (Fleet.grows_hold (net i) hnone).caches _ _ _ hr⟩
    · intro a ha key' reply' hkey' hres
      cases List.mem_singleton.mp ha
      cases hres
      rw [hkey] at hkey'
      cases hkey'
      exact ⟨by rw [get?_caches_hold, if_pos ⟨rfl, rfl⟩], fun _ => mem_holdersOf_hold (net i)⟩
  | @computed key reply hkey hnone hhome ledger =>
    have hgrows : s.Grows ((s.called key home).hold (net i) i key reply ledger) :=
      ⟨(Fleet.grows_hold (s := s.called key home) (net i) (hnone i)).caches,
        (Fleet.grows_hold (s := s.called key home) (net i) (hnone i)).indexes⟩
    have hself : (((s.called key home).hold (net i) i key reply ledger).caches i).get? key =
        some reply := by rw [get?_caches_hold, if_pos ⟨rfl, rfl⟩]
    refine h.grow hgrows ?_ ?_ ?_ ?_
    · refine Fleet.Agrees.hold (s := s.called key home) h.agrees (net i) fun j r hr => ?_
      rw [show ((s.called key home).caches j).get? key = none from hnone j] at hr
      cases hr
    · intro key'
      show (s.called key home).computations key' ≤ 1
      rw [computations_called]
      split
      · rename_i hsame
        rw [← hsame.1, h.uncomputed hnone]
      · exact h.once key'
    · intro key' hpos
      by_cases hk : key' = key
      · exact ⟨i, reply, hk ▸ hself⟩
      · have hpos : 0 < (s.called key home).computations key' := hpos
        rw [computations_called, if_neg (fun h => hk h.1.symm)] at hpos
        obtain ⟨j, r, hr⟩ := h.kept key' hpos
        exact ⟨j, r, hgrows.caches _ _ _ hr⟩
    · intro a ha key' reply' hkey' hres
      cases List.mem_singleton.mp ha
      cases hres
      rw [hkey] at hkey'
      cases hkey'
      exact ⟨hself, fun _ => mem_holdersOf_hold (net i)⟩

omit [DecidableEq ι] in
/-- Changing an index to one with more facts keeps the fleet settled. -/
theorem Settled.index (h : Settled kernel net s answers) (k : κ) {index : HoldingIndex}
    (hmore : ∀ key a, a ∈ (s.indexes k).holdersOf key → a ∈ index.holdersOf key) :
    Settled kernel net { s with indexes := Function.update s.indexes k index } answers := by
  have hgrows : s.Grows { s with indexes := Function.update s.indexes k index } := by
    refine ⟨fun _ _ _ h => h, fun k' key a ha => ?_⟩
    by_cases hk : k' = k
    · subst hk
      simp only [Function.update_self]
      exact hmore key a ha
    · simpa only [Function.update_of_ne hk] using ha
  simpa using @Settled.grow _ _ _ _ kernel net _ _ _ [] h hgrows h.agrees h.once h.kept (by simp)

theorem Settled.step (hk : kernel.KeysCanonical) (hw : Wired net)
    (h : Settled kernel net s answers) (call : FleetCall ι κ Mode Reply) :
    Settled kernel net (s.step kernel net call).1 (answers ++ (s.step kernel net call).2) := by
  cases call with
  | realize i request home => exact h.realized rfl (realize_realized hk hw i request home s)
  | announce k fact =>
    simp only [Fleet.step, List.append_nil]
    exact h.index k fun key a ha => HoldingIndex.mem_holdersOf_announce.mpr (.inl ha)
  | merge k other =>
    simp only [Fleet.step, List.append_nil]
    exact h.index k fun key a ha => HoldingIndex.mem_holdersOf_merge ha

theorem Fleet.run_concat (calls : List (FleetCall ι κ Mode Reply))
    (call : FleetCall ι κ Mode Reply) :
    s.run kernel net (calls ++ [call]) =
      (((s.run kernel net calls).1.step kernel net call).1,
        (s.run kernel net calls).2 ++ ((s.run kernel net calls).1.step kernel net call).2) := by
  rw [Fleet.run, List.foldl_append]
  rfl

theorem Settled.run (hk : kernel.KeysCanonical) (hw : Wired net) (hs : s.Agrees)
    (hnew : s.homeCalls = []) (calls : List (FleetCall ι κ Mode Reply)) :
    Settled kernel net (s.run kernel net calls).1 (s.run kernel net calls).2 := by
  have hcount (key : ContentKey) : s.computations key = 0 := by
    rw [Fleet.computations, hnew]
    rfl
  induction calls using List.reverseRecOn with
  | nil => exact ⟨hs, List.forall_mem_nil _, List.forall_mem_nil _,
      fun key => (hcount key).le.trans (Nat.zero_le 1),
      fun key hpos => absurd hpos (hcount key ▸ Nat.lt_irrefl 0)⟩
  | append_singleton calls call ih =>
    rw [Fleet.run_concat]
    exact ih.step hk hw call

/-- The fleet acts as one cassette: it holds one reply per key, every answer for a key is that
reply, a key is computed at most once, and who took a reply over is announced as its holder. -/
structure FleetAgreement (kernel : KernelApi Mode) (net : ι → ContentAddressedFabric ι κ)
    (s : Fleet ι κ Reply) (answers : List (Answer ι Mode Reply)) : Prop where
  held : s.Agrees
  answered : ∀ a ∈ answers, ∀ key reply, ContentKey.fromRequest kernel a.request = .ok key →
    a.result = .ok reply → EvalCassette.get (s.caches a.node) key = some reply ∧
      (∀ i r, EvalCassette.get (s.caches i) key = some r → r = reply) ∧
      ∀ a' ∈ answers, ∀ r, ContentKey.fromRequest kernel a'.request = .ok key →
        a'.result = .ok r → r = reply
  computed : ∀ key, s.computations key ≤ 1
  announced : ∀ a ∈ answers, ∀ key reply, ContentKey.fromRequest kernel a.request = .ok key →
    a.result = .ok reply → a.missed →
      (net a.node).node ∈ (s.indexes (net a.node).holders).holdersOf key

/-- The nodes of a wired fleet agree through every sequence of calls, whatever the holder indexes
say and whatever the home fabrics return. The cassettes at the start are any that agree, such as
fresh ones. -/
theorem fleet_agrees (hk : kernel.KeysCanonical) (hw : Wired net)
    (ledgers : ι → EffectLedgerCassette Reply) (caches : ι → Cache Reply)
    (indexes : κ → HoldingIndex) (hs : (Fleet.start ledgers caches indexes).Agrees)
    (calls : List (FleetCall ι κ Mode Reply)) :
    FleetAgreement kernel net ((Fleet.start ledgers caches indexes).run kernel net calls).1
      ((Fleet.start ledgers caches indexes).run kernel net calls).2 := by
  have h := Settled.run hk hw hs rfl calls
  refine ⟨h.agrees, ?_, h.once, h.announced⟩
  intro a ha key reply hkey hres
  have hholds := h.answered a ha key reply hkey hres
  refine ⟨hholds, fun i r hr => h.agrees i a.node key r reply hr hholds, ?_⟩
  intro a' ha' r hkey' hres'
  exact h.agrees a'.node a.node key r reply (h.answered a' ha' key r hkey' hres') hholds

end Runs

end Fabrics

namespace Sample

/-- Two nodes, each with the other as its peer. -/
def net (i : Bool) : ContentAddressedFabric Bool Bool where
  node := .new (if i then "left" else "right")
  peers := [⟨.new (if i then "right" else "left"), !i⟩]
  home := true
  holders := i

def request : EvalRequest Unit := ⟨.nil, [], .new "local-first", .new "eval", none, none, false, false⟩

/-- Fresh cassettes, and one index that wrongly announces the other node as a holder. -/
def fleet : Fleet Bool Bool String :=
  .start (fun _ => .new) (fun _ => EvalCassette.new)
    fun i => if i then HoldingIndex.announce ∅ ⟨.new "right", ⟨.ofByte (.qualified "core" "sha256") 7⟩⟩
      else ∅

/-- Both nodes are asked, and the second home fabric would return another reply. -/
def calls : List (FleetCall Bool Bool Unit String) :=
  [.realize true request (.ok "one"), .realize false request (.ok "two")]

theorem wired : Wired net where
  distinct := by decide
  named := by decide
  peers_nodup := by decide
  peers_others := by decide

end Sample

theorem fleet_agrees_two_homes :
    ((Sample.fleet.run Sample.kernel Sample.net Sample.calls).2.map (·.result) =
      [.ok "one", .ok "one"]) ∧
    FleetAgreement Sample.kernel Sample.net
      (Sample.fleet.run Sample.kernel Sample.net Sample.calls).1
      (Sample.fleet.run Sample.kernel Sample.net Sample.calls).2 := by
  refine ⟨by decide +kernel, ?_⟩
  refine fleet_agrees (fun _ => ⟨_, rfl⟩) Sample.wired _ _ _ ?_ Sample.calls
  intro i j key r r' hr
  cases hr

end SimAgentNet.StreamFabric
