import SimAgentNet.Data.Wire
import SimAgentNet.RoadmapRunner.Model

/-! # The record codec

The binary form of an execution record, the datum that carries it, and the exact condition under
which reading returns the record that was written: `decodeDatum_encodeDatum_iff`. The writer
takes every record; the reader bounds its texts and its list of changes, and splits the name of
a digest algorithm at its first slash. -/

namespace SimAgentNet.RoadmapRunner
open ByteReader

/-! ## Writing -/

namespace Writer

def u8 (v : Nat) : List UInt8 := BigEndian.bytes 1 v
def u16 (v : Nat) : List UInt8 := BigEndian.bytes 2 v
def u32 (v : Nat) : List UInt8 := BigEndian.bytes 4 v
def u64 (v : UInt64) : List UInt8 := BigEndian.bytes 8 v.toNat

def text (v : String) : List UInt8 := u32 v.utf8ByteSize ++ Text.utf8 v

def optional (write : α → List UInt8) : Option α → List UInt8
  | none => u8 0
  | some v => u8 1 ++ write v

def id (id : ContentId) : List UInt8 := text id.algorithm.display ++ id.bytes

def pins (p : ExecutionPins) : List UInt8 :=
  text p.conduct ++ (text p.policy ++ (id p.sourceDeck ++
    (text p.modelPick ++ text p.runnerGeneration)))

def objectKind : ObjectKind → Nat
  | .packet => 0
  | .deck => 1
  | .processOutput => 2
  | .fileBytes => 3
  | .evidenceSet => 4
  | .snapshot => 5

def objectRef : Option ObjectRef → List UInt8 :=
  optional fun v => u8 (objectKind v.kind) ++ (id v.content ++ (u64 v.bytes ++ text v.summary))

def change (c : SemanticChange) : List UInt8 :=
  text c.key ++ (optional id c.before ++ optional id c.after)

/-- The fields of a record, after its tag. -/
def record : ExecutionRecord → List UInt8
  | .executionOpened p parent => pins p ++ optional text parent
  | .stateTransition source target => text source ++ text target
  | .effectRequested effectId kind input => text effectId ++ (text kind ++ objectRef input)
  | .effectReceipt effectId outcome output => text effectId ++ (text outcome ++ objectRef output)
  | .mutationFence mutationId expected => text mutationId ++ text expected
  | .proofResult proof passed evidence => text proof ++ (u8 passed.toNat ++ objectRef evidence)
  | .discharge obligation => text obligation
  | .ambiguity reason => text reason
  | .terminalReceipt outcome => text outcome
  | .semanticDelta cause changes evidenceSet =>
    text cause ++ (u32 changes.length ++ (changes.flatMap change ++ id evidenceSet))
  | .snapshot covers state evidenceSet => id covers ++ (id state ++ id evidenceSet)

end Writer

def magic : List UInt8 := Text.utf8 "sim-roadmap-execution-record" ++ [0]

def encode (execution : String) (record : ExecutionRecord) : List UInt8 :=
  magic ++ (Writer.u16 RECORD_VERSION ++
    (Writer.text execution ++ (Writer.text record.tag ++ Writer.record record)))

/-- The canonical typed payload. -/
def encodeDatum (execution : String) (record : ExecutionRecord) : Datum :=
  .node (.qualified "roadmap-execution" "record-v2") [
    (.new "version", .number ⟨.qualified "numbers" "u64", toString RECORD_VERSION⟩),
    (.new "execution", .string execution),
    (.new "kind", .symbol (.qualified "roadmap-execution" record.tag)),
    (.new "wire", .bytes (encode execution record))]

/-! ## Reading -/

abbrev Reader := ByteReader ExecutionJournalError

namespace Reader

def take (n : Nat) : Reader (List UInt8) := ByteReader.take (.codec "truncated") n
def number (k : Nat) : Reader Nat := BigEndian.read (.codec "truncated") k
def u8 : Reader Nat := number 1
def u16 : Reader Nat := number 2
def u32 : Reader Nat := number 4
def u64 : Reader UInt64 := do return UInt64.ofNat (← number 8)

def textBound : Nat := 64 * 1024
def changeBound : Nat := 65536

def utf8 (bytes : List UInt8) : Reader String :=
  match Text.ofUtf8 bytes with
  | some s => return s
  | none => fail (.codec "utf8")

def text : Reader String := do
  let n ← u32
  if n > textBound then fail (.codec "text bound") else
  let bytes ← take n
  utf8 bytes

def optional (reason : String) (read : Reader α) : Reader (Option α) := do
  match ← u8 with
  | 0 => return none
  | 1 => return some (← read)
  | _ => fail (.codec reason)

def optionalText : Reader (Option String) := optional "option" text

/-- The symbol a display text stands for: qualified at the first slash. -/
def symbol (text : String) : Symbol :=
  match Text.splitOnce '/' text.toList with
  | some (a, b) => .qualified (.ofList a) (.ofList b)
  | none => .new text

def digest (algorithm : Symbol) (bytes : List UInt8) : Reader ContentId :=
  if h : bytes.length = 32 then return ⟨algorithm, bytes, h⟩ else fail (.codec "length")

def id : Reader ContentId := do
  let t ← text
  let bytes ← take 32
  digest (symbol t) bytes

def optionalId : Reader (Option ContentId) := optional "optional id" id

def pins : Reader ExecutionPins := do
  let conduct ← text
  let policy ← text
  let sourceDeck ← id
  let modelPick ← text
  let runnerGeneration ← text
  return { conduct, policy, sourceDeck, modelPick, runnerGeneration }

def objectKind : Nat → Reader ObjectKind
  | 0 => return .packet
  | 1 => return .deck
  | 2 => return .processOutput
  | 3 => return .fileBytes
  | 4 => return .evidenceSet
  | 5 => return .snapshot
  | _ => fail (.codec "object kind")

/-- Any flag other than zero announces a reference. -/
def objectRef : Reader (Option ObjectRef) := do
  let flag ← u8
  if flag = 0 then return none else
  let k ← u8
  let kind ← objectKind k
  let content ← id
  let bytes ← u64
  let summary ← text
  return some { kind, content, bytes, summary }

def change : Reader SemanticChange := do
  let key ← text
  let before ← optionalId
  let after ← optionalId
  return { key, before, after }

def changes : Reader (List SemanticChange) := do
  let count ← u32
  if count > changeBound then fail (.codec "change bound") else
  change.times count

def record (version : Nat) (tag : String) : Reader ExecutionRecord :=
  match tag with
  | "execution-opened" => do
    let p ← pins
    let parent ← optionalText
    return .executionOpened p parent
  | "state-transition" => do
    let source ← text
    let target ← text
    return .stateTransition source target
  | "effect-requested" => do
    let effectId ← text
    let kind ← text
    let input ← objectRef
    return .effectRequested effectId kind input
  | "effect-receipt" => do
    let effectId ← text
    let outcome ← text
    let output ← objectRef
    return .effectReceipt effectId outcome output
  | "mutation-fence" => do
    let mutationId ← text
    let expected ← text
    return .mutationFence mutationId expected
  | "proof-result" => do
    let proof ← text
    let passed ← u8
    let evidence ← objectRef
    return .proofResult proof (passed ≠ 0) evidence
  | "discharge" => do
    let obligation ← text
    return .discharge obligation
  | "ambiguity" => do
    let reason ← text
    return .ambiguity reason
  | "terminal-receipt" => do
    let outcome ← text
    return .terminalReceipt outcome
  | "semantic-delta" =>
    -- deltas and snapshots came with the second version
    if version ≠ RECORD_VERSION then fail (.codec "record tag") else do
      let cause ← text
      let changes ← changes
      let evidenceSet ← id
      return .semanticDelta cause changes evidenceSet
  | "snapshot" =>
    if version ≠ RECORD_VERSION then fail (.codec "record tag") else do
      let covers ← id
      let state ← id
      let evidenceSet ← id
      return .snapshot covers state evidenceSet
  | _ => fail (.codec "record tag")

def envelope : Reader (String × ExecutionRecord) := do
  let start ← take 29
  if start ≠ magic then fail (.codec "magic") else
  let version ← u16
  if version ≠ 1 ∧ version ≠ RECORD_VERSION then fail (.codec "version") else
  let execution ← text
  let tag ← text
  let record ← record version tag
  return (execution, record)

end Reader

def decode (bytes : List UInt8) : Except ExecutionJournalError (String × ExecutionRecord) := do
  let (decoded, rest) ← Reader.envelope bytes
  if !rest.isEmpty then .error (.codec "trailing bytes") else
  return decoded

/-- The bytes of a retained version one object. -/
def exactBytes : Datum → Option (List UInt8)
  | .node tag [(name, .bytes bytes)] =>
    if tag = .qualified "journal" "exact-bytes-v1" ∧ name = .new "bytes" then some bytes else none
  | _ => none

def recordField (fields : List (Symbol × Datum)) (name : String) :
    Except ExecutionJournalError Datum :=
  match fields.find? (·.1 = .new name) with
  | some (_, value) => .ok value
  | none => .error (.codec "record shape")

def decodeDatum (value : Datum) : Except ExecutionJournalError (String × ExecutionRecord) := do
  match exactBytes value with
  | some bytes => decode bytes
  | none =>
    match value with
    | .node tag fields =>
      if tag ≠ .qualified "roadmap-execution" "record-v2" ∨ fields.length ≠ 4 then
        .error (.codec "record shape")
      else
      match ← recordField fields "version" with
      | .number n =>
        if n.domain ≠ .qualified "numbers" "u64" ∨ n.canonical ≠ toString RECORD_VERSION then
          .error (.codec "record version shape")
        else
        match ← recordField fields "execution" with
        | .string execution =>
          match ← recordField fields "kind" with
          | .symbol kind =>
            match ← recordField fields "wire" with
            | .bytes wire =>
              let decoded ← decode wire
              if decoded.1 ≠ execution ∨ kind ≠ .qualified "roadmap-execution" decoded.2.tag ∨
                  encodeDatum decoded.1 decoded.2 ≠ value then
                .error (.codec "non-canonical typed record")
              else return decoded
            | _ => .error (.codec "record wire shape")
          | _ => .error (.codec "record kind shape")
        | _ => .error (.codec "record execution shape")
      | _ => .error (.codec "record version shape")
    | _ => .error (.codec "record shape")

/-! ## What the reader gives back -/

def FitsText (s : String) : Prop := s.utf8ByteSize ≤ Reader.textBound

def FitsId (id : ContentId) : Prop := FitsText id.algorithm.display ∧ id.algorithm.Plain

def FitsPins (p : ExecutionPins) : Prop :=
  FitsText p.conduct ∧ FitsText p.policy ∧ FitsId p.sourceDeck ∧ FitsText p.modelPick ∧
    FitsText p.runnerGeneration

def FitsRef (r : ObjectRef) : Prop := FitsId r.content ∧ FitsText r.summary

def FitsChange (c : SemanticChange) : Prop :=
  FitsText c.key ∧ (∀ i ∈ c.before, FitsId i) ∧ ∀ i ∈ c.after, FitsId i

/-- Every text is within the reader's bound, every list of changes is, and every algorithm name
determines its symbol. -/
def ExecutionRecord.Fits : ExecutionRecord → Prop
  | .executionOpened p parent => FitsPins p ∧ ∀ t ∈ parent, FitsText t
  | .stateTransition source target => FitsText source ∧ FitsText target
  | .effectRequested effectId kind input =>
    FitsText effectId ∧ FitsText kind ∧ ∀ r ∈ input, FitsRef r
  | .effectReceipt effectId outcome output =>
    FitsText effectId ∧ FitsText outcome ∧ ∀ r ∈ output, FitsRef r
  | .mutationFence mutationId expected => FitsText mutationId ∧ FitsText expected
  | .proofResult proof _ evidence => FitsText proof ∧ ∀ r ∈ evidence, FitsRef r
  | .discharge obligation => FitsText obligation
  | .ambiguity reason => FitsText reason
  | .terminalReceipt outcome => FitsText outcome
  | .semanticDelta cause changes evidenceSet =>
    FitsText cause ∧ (changes.length ≤ Reader.changeBound ∧ ∀ c ∈ changes, FitsChange c) ∧
      FitsId evidenceSet
  | .snapshot covers state evidenceSet => FitsId covers ∧ FitsId state ∧ FitsId evidenceSet

instance (s : String) : Decidable (FitsText s) := inferInstanceAs (Decidable (_ ≤ _))
instance (i : ContentId) : Decidable (FitsId i) := inferInstanceAs (Decidable (_ ∧ _))
instance (p : ExecutionPins) : Decidable (FitsPins p) := inferInstanceAs (Decidable (_ ∧ _))
instance (r : ObjectRef) : Decidable (FitsRef r) := inferInstanceAs (Decidable (_ ∧ _))
instance (c : SemanticChange) : Decidable (FitsChange c) := inferInstanceAs (Decidable (_ ∧ _))

instance : (r : ExecutionRecord) → Decidable r.Fits
  | .executionOpened .. | .stateTransition .. | .effectRequested .. | .effectReceipt ..
  | .mutationFence .. | .proofResult .. | .semanticDelta .. | .snapshot .. =>
    inferInstanceAs (Decidable (_ ∧ _))
  | .discharge s | .ambiguity s | .terminalReceipt s => inferInstanceAs (Decidable (FitsText s))

namespace Reader

theorem gives_number (k n : Nat) : Gives (number k) (BigEndian.bytes k n) (n % 256 ^ k) :=
  BigEndian.gives_read _ k n

theorem gives_u8 (h : n < 256) : Gives u8 (Writer.u8 n) n := by
  have := gives_number 1 n
  rwa [Nat.mod_eq_of_lt (by omega)] at this

theorem gives_u64 (v : UInt64) : Gives u64 (Writer.u64 v) v := by
  refine (gives_number 8 v.toNat).bind_pure ?_
  have h : v.toNat % 256 ^ 8 = v.toNat := Nat.mod_eq_of_lt v.toNat_lt
  rw [h, UInt64.ofNat_toNat]

theorem returns_utf8 (bytes : List UInt8) : Returns (utf8 bytes) (Text.utf8 · = bytes) := by
  unfold utf8
  split
  · rename_i s hs
    exact .pure (Text.utf8_of_ofUtf8 hs)
  · exact .fail

theorem reads_text (s : String) : Reads text (Writer.text s) s (FitsText s) := by
  refine Reads.gives_bind (gives_number 4 s.utf8ByteSize) ?_
  by_cases hf : FitsText s
  · have hb : s.utf8ByteSize ≤ textBound := hf
    have hw : s.utf8ByteSize % 256 ^ 4 = s.utf8ByteSize :=
      Nat.mod_eq_of_lt (by simp only [textBound] at hb; omega)
    have hu : utf8 (Text.utf8 s) = Pure.pure s := by simp [utf8]
    rw [hw, if_neg (by omega)]
    have := Gives.bind_pure (f := utf8) (Gives.take (e := .codec "truncated") rfl) hu
    intro rest rest'
    rw [← Text.length_utf8, Reader.take, this rest]
    simp [hf, eq_comm]
  · refine Reads.congr (Reads.of_returns ?_) (by simp [hf])
    split
    · exact .fail
    · rename_i hle
      refine .bind' (returns_take _ _) fun bytes hlen => (returns_utf8 bytes).mono ?_
      intro t ht he
      -- the length wrapped, so the bytes taken are too few
      subst he ht
      rw [Text.length_utf8] at hlen
      exact hf (show t.utf8ByteSize ≤ textBound by omega)

theorem gives_text (h : FitsText s) : Gives text (Writer.text s) s := (reads_text s).gives h

theorem reads_optional {read : Reader α} {write : α → List UInt8} {fits : α → Prop}
    (h : ∀ a, Reads read (write a) a (fits a)) (reason : String) (v : Option α) :
    Reads (optional reason read) (Writer.optional write v) v (∀ a ∈ v, fits a) := by
  cases v with
  | none =>
    rw [show Writer.optional write none = Writer.u8 0 ++ [] from (List.append_nil _).symm]
    exact (Reads.gives_bind (gives_u8 (n := 0) (by omega)) (Reads.pure (a := none))).congr (by simp)
  | some a =>
    refine (Reads.gives_bind (gives_u8 (n := 1) (by omega)) (c := fits a) ?_).congr (by simp)
    exact (h a).bind_pure (g := some) fun a' e => Option.some.inj e

theorem symbol_display_iff (s : Symbol) : symbol s.display = s ↔ s.Plain := by
  obtain ⟨ns, name⟩ := s
  cases ns with
  | none =>
    simp only [Symbol.Plain, Symbol.display, symbol, ← Text.splitOnce_eq_none_iff]
    split
    · rename_i a b h
      simp [h, Symbol.qualified]
    · rename_i h
      simp [h, Symbol.new]
  | some ns =>
    simp only [Symbol.Plain, Symbol.display, symbol]
    have hl : (ns ++ "/" ++ name).toList = ns.toList ++ '/' :: name.toList := by simp
    by_cases hns : '/' ∈ ns.toList
    · simp only [hns, not_true_eq_false, iff_false]
      split
      · rename_i a b h
        obtain ⟨-, ha⟩ := Text.eq_of_splitOnce h
        intro he
        have : String.ofList a = ns := Option.some.inj (Symbol.mk.inj he).1
        rw [← this, String.toList_ofList] at hns
        exact ha hns
      · intro he
        cases (Symbol.mk.inj he).1
    · rw [hl, Text.splitOnce_append hns]
      simp [Symbol.qualified, hns]

theorem display_symbol (t : String) : (symbol t).display = t := by
  unfold symbol
  split
  · rename_i a b h
    obtain ⟨he, -⟩ := Text.eq_of_splitOnce h
    apply String.toList_injective
    simp [Symbol.display, Symbol.qualified, he]
  · rfl

theorem returns_digest (algorithm : Symbol) (bytes : List UInt8) :
    Returns (digest algorithm bytes) (·.algorithm = algorithm) := by
  unfold digest
  split
  · exact .pure rfl
  · exact .fail

theorem reads_digest (i : ContentId) (algorithm : Symbol) :
    Reads (take 32 >>= digest algorithm) i.bytes i (algorithm = i.algorithm) := by
  have hd : digest algorithm i.bytes = Pure.pure { i with algorithm } := by
    simp [digest, i.size_bytes]
  have hg := Gives.bind_pure (Gives.take (e := .codec "truncated") i.size_bytes) hd
  intro rest rest'
  rw [Reader.take, hg rest]
  obtain ⟨a, bytes, h⟩ := i
  simp [eq_comm]

theorem reads_id (i : ContentId) : Reads id (Writer.id i) i (FitsId i) := by
  refine Reads.congr ((reads_text _).bind (reads_digest i _) ?_)
    (and_congr .rfl (symbol_display_iff _))
  intro t
  refine .bind fun bytes => (returns_digest _ bytes).mono ?_
  intro j hj he
  rw [← he, hj, display_symbol]

theorem reads_optionalText (v : Option String) :
    Reads optionalText (Writer.optional Writer.text v) v (∀ t ∈ v, FitsText t) :=
  reads_optional reads_text _ v

theorem reads_optionalId (v : Option ContentId) :
    Reads optionalId (Writer.optional Writer.id v) v (∀ i ∈ v, FitsId i) :=
  reads_optional reads_id _ v

theorem reads_pins (p : ExecutionPins) : Reads pins (Writer.pins p) p (FitsPins p) := by
  obtain ⟨conduct, policy, sourceDeck, modelPick, runnerGeneration⟩ := p
  refine (reads_text _).bind ((reads_text _).bind ((reads_id _).bind ((reads_text _).bind
    ((reads_text _).bind_pure ?_) ?_) ?_) ?_) ?_
  · exact fun _ e => (ExecutionPins.mk.inj e).2.2.2.2
  · exact fun _ => .bind fun _ => .pure fun e => (ExecutionPins.mk.inj e).2.2.2.1
  · exact fun _ => .bind fun _ => .bind fun _ => .pure fun e => (ExecutionPins.mk.inj e).2.2.1
  · exact fun _ => .bind fun _ => .bind fun _ => .bind fun _ =>
      .pure fun e => (ExecutionPins.mk.inj e).2.1
  · exact fun _ => .bind fun _ => .bind fun _ => .bind fun _ => .bind fun _ =>
      .pure fun e => (ExecutionPins.mk.inj e).1

theorem gives_objectKind (k : ObjectKind) : Gives (objectKind (Writer.objectKind k)) [] k := by
  cases k <;> exact fun _ => rfl

theorem objectKind_lt (k : ObjectKind) : Writer.objectKind k < 256 := by
  cases k <;> decide

theorem reads_objectRef (v : Option ObjectRef) :
    Reads objectRef (Writer.objectRef v) v (∀ r ∈ v, FitsRef r) := by
  cases v with
  | none =>
    rw [show Writer.objectRef none = Writer.u8 0 ++ [] from (List.append_nil _).symm]
    exact (Reads.gives_bind (gives_u8 (n := 0) (by omega)) (Reads.pure (a := none))).congr (by simp)
  | some r =>
    obtain ⟨kind, content, bytes, summary⟩ := r
    refine Reads.congr (c := FitsId content ∧ FitsText summary) ?_ (by simp [FitsRef])
    refine Reads.gives_bind (gives_u8 (n := 1) (by omega)) ?_
    rw [if_neg (by omega)]
    refine Reads.gives_bind (gives_u8 (objectKind_lt kind)) ?_
    refine Reads.gives_nil_bind (gives_objectKind kind) ?_
    refine (reads_id _).bind (Reads.gives_bind (gives_u64 bytes) ((reads_text _).bind_pure ?_)) ?_
    · exact fun _ e => (ObjectRef.mk.inj (Option.some.inj e)).2.2.2
    · exact fun _ => .bind fun _ => .bind fun _ =>
        .pure fun e => (ObjectRef.mk.inj (Option.some.inj e)).2.1

theorem reads_change (c : SemanticChange) : Reads change (Writer.change c) c (FitsChange c) := by
  obtain ⟨key, before, after⟩ := c
  refine (reads_text _).bind ((reads_optionalId _).bind ((reads_optionalId _).bind_pure ?_) ?_) ?_
  · exact fun _ e => (SemanticChange.mk.inj e).2.2
  · exact fun _ => .bind fun _ => .pure fun e => (SemanticChange.mk.inj e).2.1
  · exact fun _ => .bind fun _ => .bind fun _ => .pure fun e => (SemanticChange.mk.inj e).1

theorem reads_changes (cs : List SemanticChange) :
    Reads changes (Writer.u32 cs.length ++ cs.flatMap Writer.change) cs
      (cs.length ≤ changeBound ∧ ∀ c ∈ cs, FitsChange c) := by
  refine Reads.gives_bind (gives_number 4 cs.length) ?_
  by_cases hb : cs.length ≤ changeBound
  · have hw : cs.length % 256 ^ 4 = cs.length :=
      Nat.mod_eq_of_lt (by simp only [changeBound] at hb; omega)
    rw [hw, if_neg (by omega)]
    exact (Reads.times reads_change cs).congr (by simp [hb])
  · refine Reads.congr (Reads.of_returns ?_) (by simp [hb])
    split
    · exact .fail
    · rename_i hle
      refine (returns_times _ _).mono ?_
      intro l hl he
      subst he
      omega

theorem reads_record (r : ExecutionRecord) :
    Reads (record RECORD_VERSION r.tag) (Writer.record r) r r.Fits := by
  cases r with
  | executionOpened p parent =>
    refine (reads_pins _).bind ((reads_optionalText _).bind_pure ?_) ?_
    · exact fun _ e => (ExecutionRecord.executionOpened.inj e).2
    · exact fun _ => .bind fun _ => .pure fun e => (ExecutionRecord.executionOpened.inj e).1
  | stateTransition source target =>
    refine (reads_text _).bind ((reads_text _).bind_pure ?_) ?_
    · exact fun _ e => (ExecutionRecord.stateTransition.inj e).2
    · exact fun _ => .bind fun _ => .pure fun e => (ExecutionRecord.stateTransition.inj e).1
  | effectRequested effectId kind input =>
    refine (reads_text _).bind ((reads_text _).bind ((reads_objectRef _).bind_pure ?_) ?_) ?_
    · exact fun _ e => (ExecutionRecord.effectRequested.inj e).2.2
    · exact fun _ => .bind fun _ => .pure fun e => (ExecutionRecord.effectRequested.inj e).2.1
    · exact fun _ => .bind fun _ => .bind fun _ =>
        .pure fun e => (ExecutionRecord.effectRequested.inj e).1
  | effectReceipt effectId outcome output =>
    refine (reads_text _).bind ((reads_text _).bind ((reads_objectRef _).bind_pure ?_) ?_) ?_
    · exact fun _ e => (ExecutionRecord.effectReceipt.inj e).2.2
    · exact fun _ => .bind fun _ => .pure fun e => (ExecutionRecord.effectReceipt.inj e).2.1
    · exact fun _ => .bind fun _ => .bind fun _ =>
        .pure fun e => (ExecutionRecord.effectReceipt.inj e).1
  | mutationFence mutationId expected =>
    refine (reads_text _).bind ((reads_text _).bind_pure ?_) ?_
    · exact fun _ e => (ExecutionRecord.mutationFence.inj e).2
    · exact fun _ => .bind fun _ => .pure fun e => (ExecutionRecord.mutationFence.inj e).1
  | proofResult proof passed evidence =>
    refine (reads_text _).bind (Reads.gives_bind (gives_u8 (n := passed.toNat) ?_) ?_) ?_
    · cases passed <;> decide
    · have hp : decide (passed.toNat ≠ 0) = passed := by cases passed <;> rfl
      rw [hp]
      exact (reads_objectRef _).bind_pure fun _ e => (ExecutionRecord.proofResult.inj e).2.2
    · exact fun _ => .bind fun _ => .bind fun _ =>
        .pure fun e => (ExecutionRecord.proofResult.inj e).1
  | discharge obligation =>
    exact (reads_text _).bind_pure fun _ e => ExecutionRecord.discharge.inj e
  | ambiguity reason =>
    exact (reads_text _).bind_pure fun _ e => ExecutionRecord.ambiguity.inj e
  | terminalReceipt outcome =>
    exact (reads_text _).bind_pure fun _ e => ExecutionRecord.terminalReceipt.inj e
  | semanticDelta cause changes evidenceSet =>
    rw [Writer.record, ← List.append_assoc (Writer.u32 _)]
    refine (reads_text _).bind ((reads_changes _).bind ((reads_id _).bind_pure ?_) ?_) ?_
    · exact fun _ e => (ExecutionRecord.semanticDelta.inj e).2.2
    · exact fun _ => .bind fun _ => .pure fun e => (ExecutionRecord.semanticDelta.inj e).2.1
    · exact fun _ => .bind fun _ => .bind fun _ =>
        .pure fun e => (ExecutionRecord.semanticDelta.inj e).1
  | snapshot covers state evidenceSet =>
    refine (reads_id _).bind ((reads_id _).bind ((reads_id _).bind_pure ?_) ?_) ?_
    · exact fun _ e => (ExecutionRecord.snapshot.inj e).2.2
    · exact fun _ => .bind fun _ => .pure fun e => (ExecutionRecord.snapshot.inj e).2.1
    · exact fun _ => .bind fun _ => .bind fun _ =>
        .pure fun e => (ExecutionRecord.snapshot.inj e).1

theorem fitsText_tag (r : ExecutionRecord) : FitsText r.tag := by
  cases r <;> simp only [FitsText, ExecutionRecord.tag] <;> decide

theorem reads_envelope (execution : String) (r : ExecutionRecord) :
    Reads envelope (encode execution r) (execution, r) (FitsText execution ∧ r.Fits) := by
  refine Reads.gives_bind (Gives.take (by decide)) ?_
  rw [if_neg (by simp)]
  refine Reads.gives_bind (gives_number 2 RECORD_VERSION) ?_
  rw [if_neg (by decide)]
  refine (reads_text _).bind (Reads.gives_bind (gives_text (fitsText_tag r)) ?_) ?_
  · exact (reads_record r).bind_pure fun _ e => (Prod.mk.inj e).2
  · exact fun _ => .bind fun _ => .bind fun _ => .pure fun e => (Prod.mk.inj e).1

end Reader

theorem decode_encode_iff (execution : String) (r : ExecutionRecord) :
    decode (encode execution r) = .ok (execution, r) ↔ FitsText execution ∧ r.Fits := by
  have h := Reader.reads_envelope execution r []
  rw [List.append_nil] at h
  simp only [decode, Except.bind_eq_ok_iff]
  constructor
  · intro ⟨⟨d, rest⟩, he, hd⟩
    obtain ⟨-, hd⟩ := Except.guard_eq_ok_iff.mp hd
    cases hd
    exact ((h rest).mp he).1
  · intro hf
    exact ⟨_, (h []).mpr ⟨hf, rfl⟩, rfl⟩

theorem decodeDatum_encodeDatum_eq (execution : String) (r : ExecutionRecord) :
    decodeDatum (encodeDatum execution r) = (do
      let decoded ← decode (encode execution r)
      if decoded.1 ≠ execution ∨
          Symbol.qualified "roadmap-execution" r.tag ≠
            .qualified "roadmap-execution" decoded.2.tag ∨
          encodeDatum decoded.1 decoded.2 ≠ encodeDatum execution r then
        .error (.codec "non-canonical typed record")
      else return decoded) := by
  have hx : exactBytes (encodeDatum execution r) = none := rfl
  rw [decodeDatum.eq_def, hx]
  simp only [encodeDatum, recordField, List.find?, Symbol.new, Symbol.mk.injEq, decide_true,
    Except.ok_bind, List.length_cons, List.length_nil, ne_eq, not_true_eq_false, or_self,
    ↓reduceIte, and_false, String.reduceEq, decide_false]

/-- A written record is read back exactly when the execution name and the record fit. -/
theorem decodeDatum_encodeDatum_iff (execution : String) (r : ExecutionRecord) :
    decodeDatum (encodeDatum execution r) = .ok (execution, r) ↔ FitsText execution ∧ r.Fits := by
  rw [← decode_encode_iff, decodeDatum_encodeDatum_eq, Except.bind_eq_ok_iff]
  constructor
  · intro ⟨d, hd, he⟩
    obtain ⟨-, he⟩ := Except.guard_eq_ok_iff.mp he
    cases he
    exact hd
  · intro h
    exact ⟨_, h, if_neg (by simp)⟩

/-- Whatever record is read for a written one, it has the same tag. -/
theorem tag_of_decodeDatum (h : decodeDatum (encodeDatum execution r) = .ok (execution', r')) :
    r'.tag = r.tag := by
  rw [decodeDatum_encodeDatum_eq, Except.bind_eq_ok_iff] at h
  obtain ⟨d, -, he⟩ := h
  obtain ⟨hc, he⟩ := Except.guard_eq_ok_iff.mp he
  cases he
  have hkind := not_not.mp (not_or.mp (not_or.mp hc).2).1
  exact (Symbol.mk.inj hkind).2.symm

/-! ## Reading arbitrary bytes -/

namespace Reader

theorem returns_text : Returns text FitsText := by
  refine .bind fun n => ?_
  split
  · exact .fail
  · refine .bind' (returns_take _ n) fun bytes hlen => (returns_utf8 bytes).mono ?_
    intro s hs
    rw [FitsText, ← Text.length_utf8, hs, hlen]
    omega

theorem within_number (k : Nat) : Within (number k) k :=
  (Within.take (Nat.le_refl k)).bind (m := 0) fun _ => .pure

theorem within_text : Within text (4 + textBound) := by
  refine (within_number 4).bind fun n => ?_
  split
  · exact .fail
  · refine (Within.take (n := textBound) (by omega)).bind (m := 0) fun bytes => ?_
    unfold utf8
    split
    · exact .pure
    · exact .fail

theorem within_id : Within id (4 + textBound + 32) := by
  refine within_text.bind fun t => (Within.take (Nat.le_refl 32)).bind (m := 0) fun bytes => ?_
  unfold digest
  split
  · exact .pure
  · exact .fail

theorem within_optional {read : Reader α} (h : Within read n) (reason : String) :
    Within (optional reason read) (1 + n) := by
  refine (within_number 1).bind fun k => ?_
  split
  · exact .pure
  · exact h.bind (m := 0) fun _ => .pure
  · exact .fail

theorem within_pins : Within pins (5 * (4 + textBound) + 32) := by
  refine Within.mono (within_text.bind fun _ => within_text.bind fun _ => within_id.bind fun _ =>
    within_text.bind fun _ => within_text.bind (m := 0) fun _ => .pure) ?_
  omega

theorem within_objectRef : Within objectRef (2 * (4 + textBound) + 42) := by
  refine Within.mono ((within_number 1).bind (m := 2 * (4 + textBound) + 41) fun flag => ?_)
    (by omega)
  split
  · exact .pure
  · refine Within.mono ((within_number 1).bind fun k => Within.bind (n := 0) ?_ fun kind =>
      within_id.bind fun _ => Within.bind (n := 8) ?_ fun _ =>
        within_text.bind (m := 0) fun _ => .pure) (by omega)
    · unfold objectKind
      split
      case h_7 => exact .fail
      all_goals exact .pure
    · exact (within_number 8).bind (m := 0) fun _ => .pure

/-- Bytes that suffice for every record that is not a list of changes. -/
def recordBound : Nat := 6 * (4 + textBound) + 33

theorem within_record (h : tag ≠ "semantic-delta") (version : Nat) :
    Within (record version tag) recordBound := by
  have hrecord : recordBound = 6 * (4 + textBound) + 33 := rfl
  have htext : textBound = 65536 := rfl
  unfold record
  split
  · refine Within.mono (within_pins.bind fun _ => (within_optional within_text _).bind (m := 0)
      fun _ => .pure) ?_
    omega
  · refine Within.mono (within_text.bind fun _ => within_text.bind (m := 0) fun _ => .pure) ?_
    omega
  · refine Within.mono (within_text.bind fun _ => within_text.bind fun _ =>
      within_objectRef.bind (m := 0) fun _ => .pure) ?_
    omega
  · refine Within.mono (within_text.bind fun _ => within_text.bind fun _ =>
      within_objectRef.bind (m := 0) fun _ => .pure) ?_
    omega
  · refine Within.mono (within_text.bind fun _ => within_text.bind (m := 0) fun _ => .pure) ?_
    omega
  · refine Within.mono (within_text.bind fun _ => (within_number 1).bind fun _ =>
      within_objectRef.bind (m := 0) fun _ => .pure) ?_
    omega
  · refine Within.mono (within_text.bind (m := 0) fun _ => .pure) ?_
    omega
  · refine Within.mono (within_text.bind (m := 0) fun _ => .pure) ?_
    omega
  · refine Within.mono (within_text.bind (m := 0) fun _ => .pure) ?_
    omega
  · exact absurd rfl h
  · split
    · exact .fail
    · refine Within.mono (within_id.bind fun _ => within_id.bind fun _ =>
        within_id.bind (m := 0) fun _ => .pure) ?_
      omega
  · exact .fail

/-- Reading a written record reads its fields after a fixed head. -/
theorem record_of_envelope (h : envelope (encode execution r) = .ok ((execution, r'), [])) :
    record RECORD_VERSION r.tag (Writer.record r) = .ok (r', []) := by
  obtain ⟨start, mid₁, hstart, h⟩ := ByteReader.bind_eq_ok_iff.mp h
  have hmagic : Gives (take 29) magic magic := Gives.take (by decide)
  rw [encode, hmagic] at hstart
  cases hstart
  rw [if_neg (by simp)] at h
  obtain ⟨version, mid₂, hversion, h⟩ := ByteReader.bind_eq_ok_iff.mp h
  rw [u16, Writer.u16, gives_number] at hversion
  cases hversion
  rw [if_neg (by decide)] at h
  obtain ⟨name, mid₃, hname, h⟩ := ByteReader.bind_eq_ok_iff.mp h
  obtain ⟨tag, mid₄, htag, h⟩ := ByteReader.bind_eq_ok_iff.mp h
  obtain ⟨record', mid₅, hrecord, h⟩ := ByteReader.bind_eq_ok_iff.mp h
  obtain ⟨he, rfl⟩ := pure_eq_ok_iff.mp h
  obtain ⟨rfl, rfl⟩ := Prod.mk.inj he
  have hfits : FitsText name := returns_text _ _ _ hname
  rw [gives_text hfits] at hname
  cases hname
  rw [gives_text (fitsText_tag r)] at htag
  cases htag
  exact hrecord

theorem forces_text (h : s.utf8ByteSize < 2 ^ 32) : Forces text (Writer.text s) s := by
  by_cases hf : FitsText s
  · exact (gives_text hf).forces
  · intro rest x hx
    obtain ⟨a, rest'⟩ := x
    obtain ⟨n, mid, hn, hx⟩ := ByteReader.bind_eq_ok_iff.mp hx
    rw [Writer.text, List.append_assoc, u32, Writer.u32, gives_number] at hn
    cases hn
    have hw : s.utf8ByteSize % 256 ^ 4 = s.utf8ByteSize := Nat.mod_eq_of_lt (by omega)
    have hbound : s.utf8ByteSize > textBound := by
      simp only [FitsText] at hf
      omega
    rw [hw, if_pos hbound] at hx
    cases hx

theorem length_text (s : String) : (Writer.text s).length = 4 + s.utf8ByteSize := by
  simp [Writer.text, Writer.u32]

theorem counted_of_le (h : (Writer.text s ++ bs).length ≤ recordBound) :
    s.utf8ByteSize < 2 ^ 32 := by
  have hrecord : recordBound = 6 * (4 + textBound) + 33 := rfl
  have htext : textBound = 65536 := rfl
  rw [List.length_append, length_text] at h
  omega

theorem never_take (n : Nat) : Never (take n) (.codec "length") := .take (by simp)

theorem never_number (k : Nat) : Never (number k) (.codec "length") :=
  (never_take k).bind fun _ => .pure

theorem never_text : Never text (.codec "length") := by
  refine (never_number 4).bind fun n => ?_
  split
  · exact .fail (by simp)
  · refine (never_take n).bind fun bytes => ?_
    unfold utf8
    split
    · exact .pure
    · exact .fail (by simp)

theorem never_optional {read : Reader α} (h : Never read (.codec "length")) {reason : String}
    (hr : reason ≠ "length") : Never (optional reason read) (.codec "length") := by
  refine (never_number 1).bind fun n => ?_
  split
  · exact .pure
  · exact h.bind fun _ => .pure
  · exact .fail (by simpa using hr)

/-- A digest is made of the 32 bytes that were taken for it. -/
theorem never_id : Never id (.codec "length") := by
  refine never_text.bind fun t => (never_take 32).bind' (returns_take _ 32) fun bytes hlen => ?_
  rw [digest, dif_pos hlen]
  exact .pure

theorem never_optionalId : Never optionalId (.codec "length") := never_optional never_id (by decide)

theorem never_pins : Never pins (.codec "length") :=
  never_text.bind fun _ => never_text.bind fun _ => never_id.bind fun _ => never_text.bind fun _ =>
    never_text.bind fun _ => .pure

theorem never_objectRef : Never objectRef (.codec "length") := by
  refine (never_number 1).bind fun flag => ?_
  split
  · exact .pure
  · refine (never_number 1).bind fun k => Never.bind ?_ fun kind => never_id.bind fun _ =>
      Never.bind ((never_number 8).bind fun _ => .pure) fun _ => never_text.bind fun _ => .pure
    unfold objectKind
    split
    case h_7 => exact .fail (by simp)
    all_goals exact .pure

theorem never_changes : Never changes (.codec "length") := by
  refine (never_number 4).bind fun count => ?_
  split
  · exact .fail (by simp)
  · exact .times (never_text.bind fun _ => never_optionalId.bind fun _ =>
      never_optionalId.bind fun _ => .pure) count

theorem never_record (version : Nat) (tag : String) :
    Never (record version tag) (.codec "length") := by
  unfold record
  split
  · exact never_pins.bind fun _ => (never_optional never_text (by decide)).bind fun _ => .pure
  · exact never_text.bind fun _ => never_text.bind fun _ => .pure
  · exact never_text.bind fun _ => never_text.bind fun _ => never_objectRef.bind fun _ => .pure
  · exact never_text.bind fun _ => never_text.bind fun _ => never_objectRef.bind fun _ => .pure
  · exact never_text.bind fun _ => never_text.bind fun _ => .pure
  · exact never_text.bind fun _ => (never_number 1).bind fun _ => never_objectRef.bind fun _ => .pure
  · exact never_text.bind fun _ => .pure
  · exact never_text.bind fun _ => .pure
  · exact never_text.bind fun _ => .pure
  · split
    · exact .fail (by simp)
    · exact never_text.bind fun _ => never_changes.bind fun _ => never_id.bind fun _ => .pure
  · split
    · exact .fail (by simp)
    · exact never_id.bind fun _ => never_id.bind fun _ => never_id.bind fun _ => .pure
  · exact .fail (by simp)

theorem never_envelope : Never envelope (.codec "length") := by
  refine (never_take 29).bind fun start => ?_
  split
  · exact .fail (by simp)
  · refine (never_number 2).bind fun version => ?_
    split
    · exact .fail (by simp)
    · exact never_text.bind fun _ => never_text.bind fun tag =>
        (never_record version tag).bind fun _ => .pure

end Reader

/-- Reading ends, without the failed conversion of a digest, and it either fails or has read every
byte. -/
theorem decode_cases (bytes : List UInt8) :
    (∃ e, decode bytes = .error e ∧ e ≠ .codec "length") ∨
      ∃ x, decode bytes = .ok x ∧ Reader.envelope bytes = .ok (x, []) := by
  unfold decode
  cases h : Reader.envelope bytes with
  | error e => exact .inl ⟨e, rfl, fun he => Reader.never_envelope bytes (he ▸ h)⟩
  | ok p =>
    obtain ⟨x, rest⟩ := p
    cases rest with
    | nil => exact .inr ⟨x, rfl, rfl⟩
    | cons b rest => exact .inl ⟨.codec "trailing bytes", rfl, by simp⟩

/-- A record read from the datum of a written one was read from its bytes, to their end, and under
the same execution name. -/
theorem envelope_of_decodeDatum
    (h : decodeDatum (encodeDatum execution r) = .ok (execution', r')) :
    execution' = execution ∧ Reader.envelope (encode execution r) = .ok ((execution, r'), []) := by
  rw [decodeDatum_encodeDatum_eq, Except.bind_eq_ok_iff] at h
  obtain ⟨decoded, hd, he⟩ := h
  obtain ⟨hc, he⟩ := Except.guard_eq_ok_iff.mp he
  cases he
  obtain rfl := not_not.mp (not_or.mp hc).1
  refine ⟨rfl, ?_⟩
  obtain ⟨e, herr, -⟩ | ⟨x, hx, henv⟩ := decode_cases (encode execution' r)
  · cases herr.symm.trans hd
  · cases hx.symm.trans hd
    exact henv

/-- The fields of a record that is no list of changes are read within the bound. -/
theorem record_of_decodeDatum (ht : r.tag ≠ "semantic-delta")
    (h : decodeDatum (encodeDatum execution r) = .ok (execution', r')) :
    Reader.record RECORD_VERSION r.tag (Writer.record r) = .ok (r', []) ∧
      (Writer.record r).length ≤ Reader.recordBound := by
  have hread := Reader.record_of_envelope (envelope_of_decodeDatum h).2
  have hlen := Reader.within_record ht RECORD_VERSION _ _ _ hread
  exact ⟨hread, by simpa using hlen⟩

/-- Records are read back from their bytes and from their datum exactly when the name of the
execution and the record fit, and reading any bytes ends in an error or at their end. -/
theorem record_round_trip :
    (∀ execution r, FitsText execution ∧ r.Fits ↔
      decode (encode execution r) = .ok (execution, r) ∧
        decodeDatum (encodeDatum execution r) = .ok (execution, r)) ∧
    ∀ bytes, (∃ e, decode bytes = .error e ∧ e ≠ .codec "length") ∨
      ∃ x, decode bytes = .ok x ∧ Reader.envelope bytes = .ok (x, []) := by
  refine ⟨fun execution r => ?_, decode_cases⟩
  rw [decode_encode_iff, decodeDatum_encodeDatum_iff, and_self]

namespace Sample

/-- A text of `n` letters. -/
def letters (n : Nat) : String := .ofList (List.replicate n 'a')

theorem utf8ByteSize_letters (n : Nat) : (letters n).utf8ByteSize = n := by
  induction n with
  | zero => rfl
  | succ n ih =>
    have h : letters (n + 1) = "a" ++ letters n := by
      apply String.toList_injective
      simp [letters, List.replicate_succ]
    rw [h, String.utf8ByteSize_append, ih, Nat.add_comm]
    rfl

theorem slash_not_mem_letters (n : Nat) : '/' ∉ (letters n).toList := by
  simp [letters]

/-- An algorithm whose two names are within the bound, but not together. -/
def longId : ContentId := { ContentId.ofByte (.new "") 0 with
  algorithm := .qualified (letters 40000) (letters 40000) }

end Sample

open Sample in
/-- Two names of an algorithm are written as one text, which can be too long for the reader when
neither name is; so can the name of the execution be. -/
theorem long_algorithm_not_read :
    (FitsText (letters 40000) ∧ longId.algorithm.Plain ∧
      decode (encode "exec" (.snapshot longId longId longId)) ≠
        .ok ("exec", .snapshot longId longId longId)) ∧
    decode (encode (letters 65537) (.discharge "")) ≠ .ok (letters 65537, .discharge "") := by
  have hbound : Reader.textBound = 65536 := rfl
  refine ⟨⟨?_, slash_not_mem_letters _, ?_⟩, ?_⟩
  · rw [FitsText, utf8ByteSize_letters, hbound]
    decide
  · rw [ne_eq, decode_encode_iff]
    rintro ⟨-, ⟨hfits, -⟩, -⟩
    have hsize : longId.algorithm.display.utf8ByteSize = 40000 + 1 + 40000 := by
      simp only [longId, Symbol.qualified, Symbol.display, String.utf8ByteSize_append,
        utf8ByteSize_letters]
      rfl
    rw [FitsText, hsize, hbound] at hfits
    omega
  · rw [ne_eq, decode_encode_iff]
    rintro ⟨hfits, -⟩
    rw [FitsText, utf8ByteSize_letters, hbound] at hfits
    omega

end SimAgentNet.RoadmapRunner
