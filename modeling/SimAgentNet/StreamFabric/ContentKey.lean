import SimAgentNet.StreamFabric.Cassette

/-! # What a content key tells of a request

The datum of a canonical key determines the key, and the datum of a request determines the fields
that enter it. So where content ids tell datums apart, two requests have one content key when they
ask for the same work (`content_key_exact`). -/

namespace SimAgentNet.StreamFabric

/-! ## Canonical keys -/

namespace CanonicalKey

def kind : CanonicalKey → String
  | .atom _ => "atom"
  | .bool _ _ => "bool"
  | .bytes _ _ => "bytes"
  | .string _ _ => "string"
  | .symbol _ _ => "symbol"
  | .pair _ _ _ => "pair"
  | .compound _ _ => "compound"
  | .compoundNamed _ _ => "compound-named"

def tag : CanonicalKey → String
  | .atom tag => tag
  | .bool tag _ | .bytes tag _ | .string tag _ | .symbol tag _ => tag
  | .pair tag _ _ => tag
  | .compound tag _ | .compoundNamed tag _ => tag

/-- The fields of the datum after its tag. -/
def fields : CanonicalKey → List (Symbol × Datum)
  | .atom _ => []
  | .bool _ value => [field "value" (.bool value)]
  | .bytes _ value => [field "value" (.bytes value)]
  | .string _ value => [field "value" (.string value)]
  | .symbol _ value => [field "value" (.symbol value)]
  | .pair _ left right => [field "left" (.string left), field "right" (.string right)]
  | .compound _ items => [field "items" (.vector (itemDatums items))]
  | .compoundNamed _ items => [field "items" (.vector (namedDatums items))]

end CanonicalKey

theorem canonicalKeyDatum_eq (key : CanonicalKey) :
    canonicalKeyDatum key = taggedNode key.kind key.tag key.fields := by
  cases key <;> rfl

theorem taggedNode_inj : taggedNode kind tag fields = taggedNode kind' tag' fields' ↔
    kind = kind' ∧ tag = tag' ∧ fields = fields' := by
  simp [taggedNode, field, Symbol.qualified]

theorem parts_of_datum_eq {a b : CanonicalKey} (h : canonicalKeyDatum a = canonicalKeyDatum b) :
    a.kind = b.kind ∧ a.tag = b.tag ∧ a.fields = b.fields := by
  rw [canonicalKeyDatum_eq, canonicalKeyDatum_eq] at h
  exact taggedNode_inj.mp h

mutual
/-- The datum of a canonical key determines the key. -/
theorem canonicalKeyDatum_inj : ∀ {a b : CanonicalKey},
    canonicalKeyDatum a = canonicalKeyDatum b → a = b
  | .atom _, b, h => by
    obtain ⟨hkind, htag, -⟩ := parts_of_datum_eq h
    cases b <;> simp [CanonicalKey.kind] at hkind
    exact congrArg _ htag
  | .bool _ _, b, h | .bytes _ _, b, h | .string _ _, b, h | .symbol _ _, b, h
  | .pair _ _ _, b, h => by
    obtain ⟨hkind, htag, hfields⟩ := parts_of_datum_eq h
    cases b <;> simp only [CanonicalKey.kind, String.reduceEq] at hkind
    simp_all [CanonicalKey.tag, CanonicalKey.fields, field]
  | .compound _ items, b, h => by
    obtain ⟨hkind, htag, hfields⟩ := parts_of_datum_eq h
    cases b <;> simp [CanonicalKey.kind] at hkind
    have hitems := hfields
    simp only [CanonicalKey.fields, field, List.cons.injEq, Prod.mk.injEq, Datum.vector.injEq,
      true_and, and_true] at hitems
    exact congrArg₂ _ htag (itemDatums_inj hitems)
  | .compoundNamed _ items, b, h => by
    obtain ⟨hkind, htag, hfields⟩ := parts_of_datum_eq h
    cases b <;> simp [CanonicalKey.kind] at hkind
    have hitems := hfields
    simp only [CanonicalKey.fields, field, List.cons.injEq, Prod.mk.injEq, Datum.vector.injEq,
      true_and, and_true] at hitems
    exact congrArg₂ _ htag (namedDatums_inj hitems)
termination_by structural a => a

theorem itemDatums_inj : ∀ {as bs : List CanonicalKey}, itemDatums as = itemDatums bs → as = bs
  | [], bs, h => by
    cases bs with
    | nil => rfl
    | cons b bs => cases h
  | a :: as, bs, h => by
    cases bs with
    | nil => cases h
    | cons b bs =>
      obtain ⟨hfirst, hrest⟩ := List.cons.inj h
      rw [canonicalKeyDatum_inj hfirst, itemDatums_inj hrest]
termination_by structural as => as

theorem namedDatums_inj : ∀ {as bs : List (String × CanonicalKey)},
    namedDatums as = namedDatums bs → as = bs
  | [], bs, h => by
    cases bs with
    | nil => rfl
    | cons b bs => cases h
  | (name, a) :: as, bs, h => by
    cases bs with
    | nil => cases h
    | cons b bs =>
      obtain ⟨name', b⟩ := b
      obtain ⟨hfirst, hrest⟩ := List.cons.inj h
      simp only [field, Datum.node.injEq, List.cons.injEq, Prod.mk.injEq, Datum.string.injEq,
        true_and, and_true] at hfirst
      rw [hfirst.1, canonicalKeyDatum_inj hfirst.2, namedDatums_inj hrest]
termination_by structural as => as
end

/-! ## Requests -/

/-- A request as the kernel has it. -/
structure KernelRequest (Mode Shape Policy EvalMode : Type) where
  expr : Expr Mode
  resultShape : Option Shape
  requiredCapabilities : List String
  deadline : Option Nat
  consistency : Policy
  mode : EvalMode
  answerLimit : Option Nat
  streamBuffer : Option Nat
  stream : Bool
  trace : Bool

section
variable {Mode Shape Policy EvalMode : Type} (kernel : KernelApi Mode)
  (policyName : Policy → Symbol) (modeName : EvalMode → Symbol)

/-- What enters the content key of a request. -/
def KernelRequest.keyed (request : KernelRequest Mode Shape Policy EvalMode) : EvalRequest Mode where
  expr := request.expr
  requiredCapabilities := request.requiredCapabilities
  consistency := policyName request.consistency
  mode := modeName request.mode
  answerLimit := request.answerLimit
  streamBuffer := request.streamBuffer
  stream := request.stream
  trace := request.trace

/-- The requests agree on all but their deadlines and result shapes, and on the canonical form of
their expressions. -/
structure SameWork (request request' : KernelRequest Mode Shape Policy EvalMode) : Prop where
  expr : kernel.canonicalKey request.expr = kernel.canonicalKey request'.expr
  capabilities : request.requiredCapabilities.Perm request'.requiredCapabilities
  consistency : request.consistency = request'.consistency
  mode : request.mode = request'.mode
  answerLimit : request.answerLimit = request'.answerLimit
  streamBuffer : request.streamBuffer = request'.streamBuffer
  stream : request.stream = request'.stream
  trace : request.trace = request'.trace

theorem mergeSort_eq_iff {l l' : List String} :
    l.mergeSort (fun a b => decide (a ≤ b)) = l'.mergeSort (fun a b => decide (a ≤ b)) ↔
      l.Perm l' := by
  constructor
  · intro h
    exact (List.mergeSort_perm l _).symm.trans (h ▸ List.mergeSort_perm l' _)
  · intro h
    have hsorted (l : List String) :
        (l.mergeSort fun a b => decide (a ≤ b)).Pairwise (· ≤ ·) := by
      refine (List.pairwise_mergeSort (fun a b c hab hbc => ?_) (fun a b => ?_) l).imp of_decide_eq_true
      · exact decide_eq_true ((of_decide_eq_true hab).trans (of_decide_eq_true hbc))
      · simp [le_total]
    have hperm := ((List.mergeSort_perm l fun a b => decide (a ≤ b)).trans h).trans
      (List.mergeSort_perm l' fun a b => decide (a ≤ b)).symm
    exact hperm.eq_of_pairwise (fun a b _ _ => le_antisymm) (hsorted l) (hsorted l')

theorem optionalUsizeDatum_inj {n m : Option Nat} :
    optionalUsizeDatum n = optionalUsizeDatum m ↔ n = m := by
  cases n <;> cases m <;>
    simp [optionalUsizeDatum, usizeDatum, Nat.repr_inj]

variable {kernel policyName modeName}

/-- The datum of a request determines the work it asks for. -/
theorem requestContentDatum_eq_iff (hpolicy : Function.Injective policyName)
    (hmode : Function.Injective modeName)
    {request request' : KernelRequest Mode Shape Policy EvalMode} :
    requestContentDatum kernel (request.keyed policyName modeName) =
      requestContentDatum kernel (request'.keyed policyName modeName) ↔
        SameWork kernel request request' := by
  simp only [requestContentDatum, KernelRequest.keyed, field, Datum.node.injEq, true_and,
    List.cons.injEq, Prod.mk.injEq, Datum.vector.injEq, Datum.symbol.injEq, Datum.bool.injEq,
    and_true, hpolicy.eq_iff, hmode.eq_iff, optionalUsizeDatum_inj]
  rw [(List.map_injective_iff.mpr fun _ _ => Datum.string.inj).eq_iff, mergeSort_eq_iff]
  constructor
  · rintro ⟨hexpr, hcapabilities, hpolicy, hmode, hlimit, hbuffer, hstream, htrace⟩
    exact ⟨canonicalKeyDatum_inj hexpr, hcapabilities, hpolicy, hmode, hlimit, hbuffer, hstream,
      htrace⟩
  · intro h
    exact ⟨congrArg _ h.expr, h.capabilities, h.consistency, h.mode, h.answerLimit,
      h.streamBuffer, h.stream, h.trace⟩

end

/-! ## Keys -/

section
variable {Mode : Type} (kernel : KernelApi Mode) (canonicalBytes : Datum → Except String (List UInt8))

/-- The order of keys, by the canonical bytes of their datums. The code takes the datums to be
canonical and panics on one that is not. -/
def ContentKey.cmp (key other : ContentKey) : Except (Halt String) Ordering := do
  let bytes ← (canonicalBytes key.datum).mapError fun _ => .panicked
  let others ← (canonicalBytes other.datum).mapError fun _ => .panicked
  return compare bytes others

/-- The keys of requests. -/
abbrev RequestKey := { key : ContentKey // ∃ request, ContentKey.fromRequest kernel request = .ok key }

/-- Content ids are digests of canonical bytes and tell datums apart, and the datum of a key is
canonical. -/
structure KernelApi.Exact (digest : List UInt8 → ContentId) : Prop where
  contentId : ∀ d, kernel.contentId d = (canonicalBytes d).map digest
  injective : ∀ d d' id, kernel.contentId d = .ok id → kernel.contentId d' = .ok id → d = d'
  canonical : ∀ key : RequestKey kernel, ∃ bytes, canonicalBytes key.1.datum = .ok bytes

variable {kernel canonicalBytes}

theorem contentKey_eq_iff {digest : List UInt8 → ContentId}
    (hk : kernel.Exact canonicalBytes digest) {request request' : EvalRequest Mode}
    (h : ContentKey.fromRequest kernel request = .ok key)
    (h' : ContentKey.fromRequest kernel request' = .ok key') :
    key = key' ↔ requestContentDatum kernel request = requestContentDatum kernel request' := by
  rw [ContentKey.fromRequest] at h h'
  cases hid : kernel.contentId (requestContentDatum kernel request) with
  | error e =>
    rw [hid] at h
    cases h
  | ok id =>
    cases hid' : kernel.contentId (requestContentDatum kernel request') with
    | error e =>
      rw [hid'] at h'
      cases h'
    | ok id' =>
      rw [hid] at h
      rw [hid'] at h'
      cases h
      cases h'
      constructor
      · intro heq
        cases heq
        exact hk.injective _ _ _ hid hid'
      · intro heq
        rw [heq, hid'] at hid
        cases hid
        rfl

theorem datum_inj {key key' : ContentKey} (h : key.datum = key'.datum) : key = key' := by
  obtain ⟨⟨algorithm, bytes, hlen⟩⟩ := key
  obtain ⟨⟨algorithm', bytes', hlen'⟩⟩ := key'
  simp only [ContentKey.datum, contentIdDatum, field, Datum.node.injEq, List.cons.injEq,
    Prod.mk.injEq, Datum.symbol.injEq, Datum.bytes.injEq, true_and, and_true] at h
  obtain ⟨rfl, rfl⟩ := h
  rfl

/-- The canonical bytes of the keys of requests tell them apart. -/
theorem exists_keyBytes {digest : List UInt8 → ContentId} (hk : kernel.Exact canonicalBytes digest) :
    ∃ bytes : RequestKey kernel → List UInt8, Function.Injective bytes ∧
      ∀ key, canonicalBytes key.1.datum = .ok (bytes key) := by
  choose bytes hbytes using hk.canonical
  refine ⟨bytes, fun key key' heq => ?_, hbytes⟩
  have hid : kernel.contentId key.1.datum = .ok (digest (bytes key)) := by
    rw [hk.contentId, hbytes]
    rfl
  have hid' : kernel.contentId key'.1.datum = .ok (digest (bytes key)) := by
    rw [hk.contentId, hbytes, heq]
    rfl
  exact Subtype.ext (datum_inj (hk.injective _ _ _ hid hid'))

/-- Requests have one content key exactly when they ask for the same work, and the order of keys is
total and tells the keys apart. -/
theorem content_key_exact {Shape Policy EvalMode : Type} {policyName : Policy → Symbol}
    {modeName : EvalMode → Symbol} (hpolicy : Function.Injective policyName)
    (hmode : Function.Injective modeName) {digest : List UInt8 → ContentId}
    (hk : kernel.Exact canonicalBytes digest) :
    (∀ (request request' : KernelRequest Mode Shape Policy EvalMode) (key key' : ContentKey),
      ContentKey.fromRequest kernel (request.keyed policyName modeName) = .ok key →
      ContentKey.fromRequest kernel (request'.keyed policyName modeName) = .ok key' →
        (key = key' ↔ SameWork kernel request request')) ∧
    Function.Injective canonicalKeyDatum ∧
    ∃ order : RequestKey kernel → RequestKey kernel → Ordering,
      (∀ key other : RequestKey kernel,
        key.1.cmp canonicalBytes other.1 = .ok (order key other)) ∧
      Std.TransCmp order ∧ Std.LawfulEqCmp order := by
  refine ⟨?_, fun _ _ => canonicalKeyDatum_inj, ?_⟩
  · intro request request' key key' h h'
    rw [contentKey_eq_iff hk h h', requestContentDatum_eq_iff hpolicy hmode]
  · obtain ⟨bytes, hinj, hbytes⟩ := exists_keyBytes hk
    refine ⟨compareOn bytes, fun key other => ?_, inferInstance, ⟨fun h => ?_⟩⟩
    · rw [ContentKey.cmp, hbytes, hbytes]
      rfl
    · exact hinj (Std.LawfulEqOrd.eq_of_compare h)

end

/-! ## Two deadlines -/

namespace KeySample

def request (deadline : Nat) : KernelRequest Unit Unit Unit Unit where
  expr := .nil
  resultShape := none
  requiredCapabilities := ["eval", "read"]
  deadline := some deadline
  consistency := ()
  mode := ()
  answerLimit := some 1
  streamBuffer := none
  stream := false
  trace := false

def name (_ : Unit) : Symbol := .new "default"

def digest (bytes : List UInt8) : ContentId := .ofByte (.qualified "core" "sha256") (bytes.headD 0)

def requestDatum : Datum :=
  requestContentDatum ⟨fun _ => .error "", fun _ => .atom "nil"⟩ ((request 0).keyed name name)

def keyDatum : Datum := contentIdDatum (digest [0])

/-- Canonical bytes of the datum of the request and of that of its key. -/
def canonicalBytes (d : Datum) : Except String (List UInt8) :=
  if d = requestDatum then .ok [0] else if d = keyDatum then .ok [1] else .error "not a datum"

def kernel : KernelApi Unit where
  contentId d := (canonicalBytes d).map digest
  canonicalKey _ := .atom "nil"

theorem contentId_eq_ok {d : Datum} {id : ContentId} (h : kernel.contentId d = .ok id) :
    d = requestDatum ∧ id = digest [0] ∨ d = keyDatum ∧ id = digest [1] := by
  simp only [kernel, canonicalBytes] at h
  split at h
  · rename_i hd
    exact .inl ⟨hd, (Except.ok.inj h).symm⟩
  · split at h
    · rename_i hd
      exact .inr ⟨hd, (Except.ok.inj h).symm⟩
    · cases h

theorem exact : kernel.Exact canonicalBytes digest where
  contentId _ := rfl
  injective d d' id h h' := by
    have hne : digest [0] ≠ digest [1] := by decide
    obtain ⟨hd, hid⟩ | ⟨hd, hid⟩ := contentId_eq_ok h <;>
      obtain ⟨hd', hid'⟩ | ⟨hd', hid'⟩ := contentId_eq_ok h'
    · rw [hd, hd']
    · exact absurd (hid.symm.trans hid') hne
    · exact absurd (hid'.symm.trans hid) hne
    · rw [hd, hd']
  canonical := by
    rintro ⟨key, request, h⟩
    rw [ContentKey.fromRequest] at h
    cases hid : kernel.contentId (requestContentDatum kernel request) with
    | error e =>
      rw [hid] at h
      cases h
    | ok id =>
      rw [hid] at h
      cases h
      obtain ⟨-, rfl⟩ | ⟨hd, -⟩ := contentId_eq_ok hid
      · exact ⟨[1], rfl⟩
      · simp [requestContentDatum, keyDatum, contentIdDatum, Symbol.qualified] at hd

end KeySample

theorem content_key_of_deadlines :
    ∃ key, ContentKey.fromRequest KeySample.kernel
        ((KeySample.request 5).keyed KeySample.name KeySample.name) = .ok key ∧
      ContentKey.fromRequest KeySample.kernel
        ((KeySample.request 9).keyed KeySample.name KeySample.name) = .ok key ∧
      SameWork KeySample.kernel (KeySample.request 5) (KeySample.request 9) := by
  have hname : Function.Injective KeySample.name := fun _ _ _ => rfl
  have hkey (n : Nat) : ContentKey.fromRequest KeySample.kernel
      ((KeySample.request n).keyed KeySample.name KeySample.name) = .ok ⟨KeySample.digest [0]⟩ := by
    have hid : KeySample.kernel.contentId (requestContentDatum KeySample.kernel
        ((KeySample.request n).keyed KeySample.name KeySample.name)) = .ok (KeySample.digest [0]) :=
      congrArg (fun read : Except String (List UInt8) => read.map KeySample.digest) (if_pos rfl)
    rw [ContentKey.fromRequest, hid]
  exact ⟨_, hkey 5, hkey 9,
    ((content_key_exact hname hname KeySample.exact).1 _ _ _ _ (hkey 5) (hkey 9)).mp rfl⟩

end SimAgentNet.StreamFabric
