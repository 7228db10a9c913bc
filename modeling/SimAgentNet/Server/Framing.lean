import SimAgentNet.Data.Effect
import SimAgentNet.Data.Reading
import SimAgentNet.Data.Wire
import SimAgentNet.Server.Frame

/-! # Transport framing

A frame on the wire is two big-endian lengths, the encoded header and the payload. The binary codec
of header expressions is a parameter. `framing_round_trip` is about whole streams: however the bytes
arrive, the frames that were written are read and then the end of the stream, and a stream that
ends inside a frame gives an error there. -/

namespace SimAgentNet.Server
variable {Mode : Type}

/-- The binary codec of header expressions. -/
structure HeaderCodec (Mode : Type) where
  encode : Expr Mode → Except Error (List UInt8)
  decode : List UInt8 → Except Error (Expr Mode)

/-- What was encoded is decoded. -/
def HeaderCodec.Faithful (codec : HeaderCodec Mode) : Prop :=
  ∀ e bs, codec.encode e = .ok bs → codec.decode bs = .ok e

def maxTransportFrameBytes : Nat := 8 * 1024 * 1024

def framePrefixBytes : Nat := 8

def exceedsLimit : Error := .hostError "transport frame exceeds size limit"

section
variable (codec : HeaderCodec Mode) (asSymbol : Consistency → Symbol)

def encodeTransportFrame (frame : ServerFrame) : Except Error (List UInt8) := do
  let header ← codec.encode (frameHeaderExpr asSymbol frame)
  if header.length > maxTransportFrameBytes ∨ frame.payload.length > maxTransportFrameBytes then
    .error exceedsLimit
  else if header.length ≥ 2 ^ 32 then .error (.hostError "transport header exceeds u32")
  else if frame.payload.length ≥ 2 ^ 32 then .error (.hostError "transport payload exceeds u32")
  else return BigEndian.bytes 4 header.length ++ BigEndian.bytes 4 frame.payload.length ++
    header ++ frame.payload

end

section
variable (codec : HeaderCodec Mode)

/-- The two lengths at the start of a frame. -/
def prefixLengths (bytes : List UInt8) : Nat × Nat :=
  (BigEndian.toNat (bytes.take 4), BigEndian.toNat ((bytes.drop 4).take 4))

def decodeTransportFrame (bytes : List UInt8) : Except Error ServerFrame :=
  if bytes.length < framePrefixBytes then .error (.hostError "truncated transport frame prefix")
  else
    let (headerLen, payloadLen) := prefixLengths bytes
    if headerLen > maxTransportFrameBytes ∨ payloadLen > maxTransportFrameBytes then
      .error exceedsLimit
    else if bytes.length < framePrefixBytes + headerLen + payloadLen then
      .error (.hostError "truncated transport frame body")
    else do
      let header ← codec.decode ((bytes.drop framePrefixBytes).take headerLen)
      frameFromHeaderExpr header ((bytes.drop (framePrefixBytes + headerLen)).take payloadLen)

/-- An error of the operating system: its kind and its text. -/
structure IoError where
  kind : String
  message : String
deriving DecidableEq

def ioToHost (e : IoError) : Error := .hostError ("io " ++ e.kind ++ ": " ++ e.message)

abbrev Reader (α : Type) := Effect Error (List (Segment IoError)) α

/-- Fills a buffer, or finds the stream at its end. -/
def readExactOrEof (n : Nat) : Reader (Option (List UInt8)) := fun segments =>
  match fill n segments with
  | (.filled bytes, r) => (.ok (some bytes), r)
  | (.short [], r) => (.ok none, r)
  | (.short _, r) => (.error (.hostError "truncated transport frame prefix"), r)
  | (.failed e, r) => (.error (ioToHost e), r)

/-- Fills a buffer (the standard library's `read_exact`). -/
def readExact (n : Nat) : Reader (List UInt8) := fun segments =>
  match fill n segments with
  | (.filled bytes, r) => (.ok bytes, r)
  | (.short _, r) => (.error (ioToHost ⟨"UnexpectedEof", "failed to fill whole buffer"⟩), r)
  | (.failed e, r) => (.error (ioToHost e), r)

/-- Reads the rest of a frame after its lengths. -/
def readBody (start : List UInt8) : Reader (Option ServerFrame) :=
  let (headerLen, payloadLen) := prefixLengths start
  if headerLen > maxTransportFrameBytes ∨ payloadLen > maxTransportFrameBytes then
    .fail exceedsLimit
  else do
    let body ← readExact (headerLen + payloadLen)
    let frame ← .ofExcept (decodeTransportFrame codec (start ++ body))
    return some frame

def readFrameFrom : Reader (Option ServerFrame) := do
  match ← readExactOrEof framePrefixBytes with
  | none => return none
  | some start => readBody codec start

/-- The results of reading one frame after the other, and what the reader has left. -/
def readFrames : Nat → List (Segment IoError) →
    List (Except Error (Option ServerFrame)) × List (Segment IoError)
  | 0, segments => ([], segments)
  | n + 1, segments =>
    let (result, r) := readFrameFrom codec segments
    (result :: (readFrames n r).1, (readFrames n r).2)

end

/-! ## One frame -/

section Encoded
variable {codec : HeaderCodec Mode} {asSymbol : Consistency → Symbol} {frame : ServerFrame}
  {header payload : List UInt8}

variable (codec asSymbol) in
/-- The parts of the frame are within the size limit. -/
def Fits (frame : ServerFrame) : Prop :=
  ∃ header, codec.encode (frameHeaderExpr asSymbol frame) = .ok header ∧
    header.length ≤ maxTransportFrameBytes ∧ frame.payload.length ≤ maxTransportFrameBytes

/-- A frame of the given parts. -/
def wire (header payload : List UInt8) : List UInt8 :=
  BigEndian.bytes 4 header.length ++ BigEndian.bytes 4 payload.length ++ (header ++ payload)

theorem encodeTransportFrame_eq_ok_iff :
    encodeTransportFrame codec asSymbol frame = .ok bytes ↔
      ∃ header, codec.encode (frameHeaderExpr asSymbol frame) = .ok header ∧
        header.length ≤ maxTransportFrameBytes ∧ frame.payload.length ≤ maxTransportFrameBytes ∧
        bytes = wire header frame.payload := by
  have hmax : maxTransportFrameBytes < 2 ^ 32 := by decide
  simp only [encodeTransportFrame, Except.bind_eq_ok_iff, Except.guard_eq_ok_iff, not_or, not_lt,
    ge_iff_le, not_le]
  refine exists_congr fun header => and_congr_right fun _ => ?_
  constructor
  · rintro ⟨⟨hh, hp⟩, -, -, h⟩
    exact ⟨hh, hp, by rw [← Except.ok.inj h, wire, List.append_assoc]⟩
  · rintro ⟨hh, hp, rfl⟩
    exact ⟨⟨hh, hp⟩, by omega, by omega, by rw [wire, ← List.append_assoc]; rfl⟩

theorem prefixLengths_wire (hh : header.length ≤ maxTransportFrameBytes)
    (hp : payload.length ≤ maxTransportFrameBytes) (more : List UInt8) :
    prefixLengths (BigEndian.bytes 4 header.length ++ BigEndian.bytes 4 payload.length ++ more) =
      (header.length, payload.length) := by
  have hmax : maxTransportFrameBytes < 256 ^ 4 := by decide
  have h₁ : header.length % 256 ^ 4 = header.length := Nat.mod_eq_of_lt (by omega)
  have h₂ : payload.length % 256 ^ 4 = payload.length := Nat.mod_eq_of_lt (by omega)
  rw [prefixLengths, List.append_assoc, List.take_left' (by simp), List.drop_left' (by simp),
    List.take_left' (by simp), BigEndian.toNat_bytes, BigEndian.toNat_bytes, h₁, h₂]

theorem decodeTransportFrame_wire (hh : header.length ≤ maxTransportFrameBytes)
    (hp : payload.length ≤ maxTransportFrameBytes) :
    decodeTransportFrame codec (wire header payload) =
      (codec.decode header >>= fun e => frameFromHeaderExpr e payload) := by
  have hlen : (wire header payload).length = 8 + header.length + payload.length := by
    simp [wire]
    omega
  have hheader : ((wire header payload).drop 8).take header.length = header := by
    rw [wire, List.drop_left' (by simp), List.take_left' rfl]
  have hpayload : ((wire header payload).drop (8 + header.length)).take payload.length =
      payload := by
    rw [wire, ← List.append_assoc, List.drop_left' (by simp; omega), List.take_length]
  have hlengths : prefixLengths (wire header payload) = (header.length, payload.length) :=
    prefixLengths_wire hh hp _
  unfold decodeTransportFrame
  simp only [hlen, hlengths, framePrefixBytes, hheader, hpayload, Nat.not_lt.mpr hh,
    Nat.not_lt.mpr hp, or_self, if_false, lt_irrefl]
  rw [if_neg (by omega)]

/-- What was encoded is decoded, if the deadline is a whole number of milliseconds. -/
theorem decode_encodeTransportFrame (hn : ConsistencyNames asSymbol) (hc : codec.Faithful)
    (hd : ∀ d ∈ frame.envelope.deadline, d.Whole)
    (h : encodeTransportFrame codec asSymbol frame = .ok bytes) :
    decodeTransportFrame codec bytes = .ok frame := by
  obtain ⟨header, henc, hh, hp, rfl⟩ := encodeTransportFrame_eq_ok_iff.mp h
  rw [decodeTransportFrame_wire hh hp, hc _ _ henc]
  exact frameFromHeaderExpr_frameHeaderExpr hn hd

end Encoded

/-! ## Reading -/

section Read
variable {codec : HeaderCodec Mode} {asSymbol : Consistency → Symbol} {frame : ServerFrame}
  {segments : List (Segment IoError)} {bytes rest : List UInt8}

open Segment Reading

/-- A buffer that is filled consumes its bytes. -/
theorem consumes_readExact (bytes : List UInt8) : Consumes (readExact bytes.length) bytes bytes := by
  constructor
  · intro segments rest hclean hcontent
    obtain ⟨r, hr, hrest, hclean⟩ := fill_of_append hclean hcontent
    exact ⟨r, by rw [readExact, hr], hrest, hclean⟩
  · intro part hpre hne
    refine ⟨ioToHost ⟨"UnexpectedEof", "failed to fill whole buffer"⟩, ?_⟩
    intro segments hclean hcontent
    have hlt : (content segments).length < bytes.length := by
      rw [hcontent]
      exact lt_of_le_of_ne hpre.length_le fun h => hne (hpre.eq_of_length h)
    obtain ⟨r, hr, hrest, hclean⟩ := fill_of_lt hclean hlt
    exact ⟨r, by rw [readExact, hr], hrest, hclean⟩

/-- The two lengths at the start of a frame. -/
def lengths (header payload : List UInt8) : List UInt8 :=
  BigEndian.bytes 4 header.length ++ BigEndian.bytes 4 payload.length

theorem length_lengths (header payload : List UInt8) :
    (lengths header payload).length = framePrefixBytes := by
  simp [lengths, framePrefixBytes]

theorem reads_lengths (header payload : List UInt8) :
    Reads (readExactOrEof framePrefixBytes) (lengths header payload)
      (some (lengths header payload)) := by
  intro segments rest hclean hcontent
  obtain ⟨r, hr, hrest, hclean⟩ := fill_of_append hclean hcontent
  rw [length_lengths] at hr
  exact ⟨r, by simp only [readExactOrEof, hr], hrest, hclean⟩

theorem readExactOrEof_short (part : List UInt8) (hne : part ≠ []) (h : part.length < n) :
    Ends (readExactOrEof n) part (.error (.hostError "truncated transport frame prefix")) := by
  intro segments hclean hcontent
  rw [← hcontent] at h hne
  obtain ⟨r, hr, hrest, hclean⟩ := fill_of_lt hclean h
  refine ⟨r, ?_, hrest, hclean⟩
  rw [readExactOrEof, hr]
  cases hbytes : content segments with
  | nil => exact absurd hbytes hne
  | cons b bs => rfl

/-- After its lengths, the body of a frame is what the buffer is filled with. -/
theorem readBody_lengths (codec : HeaderCodec Mode) {header payload : List UInt8}
    (hh : header.length ≤ maxTransportFrameBytes) (hp : payload.length ≤ maxTransportFrameBytes) :
    readBody codec (lengths header payload) = (do
      let body ← readExact (header ++ payload).length
      let frame ← .ofExcept (decodeTransportFrame codec (lengths header payload ++ body))
      return some frame) := by
  have hlengths := prefixLengths_wire hh hp []
  rw [List.append_nil] at hlengths
  rw [List.length_append, lengths]
  simp only [readBody, hlengths, Nat.not_lt.mpr hh, Nat.not_lt.mpr hp, or_self, if_false]

theorem wire_eq (header payload : List UInt8) :
    wire header payload = lengths header payload ++ (header ++ payload) := rfl

theorem readFrameFrom_end (codec : HeaderCodec Mode) : Ends (readFrameFrom codec) [] (.ok none) := by
  intro segments hclean hcontent
  have hlt : (content segments).length < framePrefixBytes := by
    rw [hcontent]
    decide
  obtain ⟨r, hr, hrest, hclean⟩ := fill_of_lt hclean hlt
  rw [hcontent] at hr
  refine ⟨r, ?_, hrest, hclean⟩
  rw [readFrameFrom, Effect.bind_apply, readExactOrEof, hr]
  rfl

theorem reads_readFrameFrom (h : encodeTransportFrame codec asSymbol frame = .ok bytes)
    (hdec : decodeTransportFrame codec bytes = .ok frame) :
    Reads (readFrameFrom codec) bytes (some frame) := by
  obtain ⟨header, -, hh, hp, rfl⟩ := encodeTransportFrame_eq_ok_iff.mp h
  rw [wire_eq] at hdec ⊢
  refine (reads_lengths header frame.payload).bind ?_
  simp only [readBody_lengths codec hh hp]
  have hbody := consumes_readExact (header ++ frame.payload)
  refine (hbody.bind_last ?_).reads
  rw [hdec]
  exact .pure (some frame)

/-- A stream that ends inside a frame gives an error. -/
theorem readFrameFrom_cut (h : encodeTransportFrame codec asSymbol frame = .ok bytes)
    (hpre : part <+: bytes) (hne : part ≠ []) (hcut : part ≠ bytes) :
    ∃ e, Ends (readFrameFrom codec) part (.error e) := by
  obtain ⟨header, -, hh, hp, rfl⟩ := encodeTransportFrame_eq_ok_iff.mp h
  rw [wire_eq] at hpre hcut
  refine (reads_lengths header frame.payload).cut ?_ ?_ hpre hne hcut
  · intro part hne hlt
    rw [length_lengths] at hlt
    exact ⟨_, readExactOrEof_short part hne hlt⟩
  · -- the lengths are there and the body is not
    intro part hpre hne
    obtain ⟨e, he⟩ := (consumes_readExact (header ++ frame.payload)).starves part hpre hne
    refine ⟨e, ?_⟩
    simp only [readBody_lengths codec hh hp]
    exact he.bind_error

theorem readFrames_eq (codec : HeaderCodec Mode) (n : Nat) (segments : List (Segment IoError)) :
    readFrames codec n segments = readAll (readFrameFrom codec) n segments := by
  induction n generalizing segments with
  | zero => rfl
  | succ n ih => simp only [readFrames, readAll, ih]

variable (codec asSymbol) in
/-- The frames, each with its encoding. -/
def Written (frames : List ServerFrame) (encodings : List (List UInt8)) : Prop :=
  List.Forall₂ (fun f bs => encodeTransportFrame codec asSymbol f = .ok bs) frames encodings

theorem reads_of_written (hn : ConsistencyNames asSymbol) (hc : codec.Faithful)
    (hd : ∀ f ∈ frames, ∀ d ∈ f.envelope.deadline, d.Whole)
    (hw : Written codec asSymbol frames encodings) :
    List.Forall₂ (fun a bytes => Reads (readFrameFrom codec) bytes a) (frames.map some)
      encodings := by
  induction hw with
  | nil => exact .nil
  | cons henc _ ih =>
    have hdec := decode_encodeTransportFrame hn hc (hd _ List.mem_cons_self) henc
    exact .cons (reads_readFrameFrom henc hdec) (ih fun f hf => hd f (List.mem_cons_of_mem _ hf))

/-- Frames within the size limit whose deadlines are whole milliseconds are decoded from what they
are encoded to. However a stream of such frames arrives, they are read and then the end of the
stream; a stream that ends inside one of them gives an error in its place, and no frame. -/
theorem framing_round_trip (hn : ConsistencyNames asSymbol) (hc : codec.Faithful) :
    (∀ f, Fits codec asSymbol f → (∀ d ∈ f.envelope.deadline, d.Whole) →
      ∃ bytes, encodeTransportFrame codec asSymbol f = .ok bytes ∧
        decodeTransportFrame codec bytes = .ok f) ∧
    ∀ frames encodings, Written codec asSymbol frames encodings →
      (∀ f ∈ frames, ∀ d ∈ f.envelope.deadline, d.Whole) →
      (∀ segments : List (Segment IoError), Clean segments →
        content segments = encodings.flatten → ∀ k,
          (readFrames codec (frames.length + k) segments).1 =
            frames.map (fun f => .ok (some f)) ++ List.replicate k (.ok none)) ∧
      ∀ f bytes part, encodeTransportFrame codec asSymbol f = .ok bytes → part <+: bytes →
        part ≠ [] → part ≠ bytes → ∀ segments : List (Segment IoError), Clean segments →
          content segments = encodings.flatten ++ part → ∀ k, ∃ e,
            (readFrames codec (frames.length + (k + 1)) segments).1 =
              frames.map (fun f => .ok (some f)) ++ .error e :: List.replicate k (.ok none) := by
  refine ⟨?_, ?_⟩
  · rintro f ⟨header, henc, hh, hp⟩ hd
    have h := encodeTransportFrame_eq_ok_iff.mpr ⟨header, henc, hh, hp, rfl⟩
    exact ⟨_, h, decode_encodeTransportFrame hn hc hd h⟩
  · intro frames encodings hw hd
    have hreads := reads_of_written hn hc hd hw
    have hvalues : (frames.map some).map Except.ok =
        frames.map fun f => (.ok (some f) : Except Error (Option ServerFrame)) := List.map_map
    refine ⟨?_, ?_⟩
    · intro segments hclean hcontent k
      have h := readAll_stream hreads (readFrameFrom_end codec) hclean hcontent k
      rwa [List.length_map, hvalues, ← readFrames_eq] at h
    · intro f bytes part henc hpre hne hcut segments hclean hcontent k
      obtain ⟨e, he⟩ := readFrameFrom_cut henc hpre hne hcut
      have h := readAll_stream_cut hreads (readFrameFrom_end codec) he hclean hcontent k
      rw [List.length_map, hvalues, ← readFrames_eq] at h
      exact ⟨e, h⟩

end Read

namespace Sample

def names : Consistency → Symbol
  | .localFirst => .new "local-first"
  | .remoteOnly => .new "remote-only"
  | .localOnly => .new "local-only"

def request : ServerFrame where
  version := 1
  codec := .qualified "codec" "lisp"
  msgId := some 7
  correlate := none
  kind := .trigger (.new "cron") 90
  envelope := {
    deadline := some (.fromMillis 250)
    consistency := .remoteOnly
    trace := true
    requiredCapabilities := [⟨"eval/remote"⟩]
    replyCodecHint := none
    role := some (.new "worker")
    hop := 2
    triggerSource := none }
  payload := [1, 2, 3]

/-- A codec of one header. -/
def oneHeader : HeaderCodec Unit where
  encode e := if e = frameHeaderExpr names request then .ok [42, 0, 7]
    else .error (.codec "unknown header")
  decode bs := if bs = [42, 0, 7] then .ok (frameHeaderExpr names request)
    else .error (.codec "unknown header")

theorem oneHeader_faithful : oneHeader.Faithful := by
  intro e bs h
  unfold oneHeader at h ⊢
  dsimp only at h ⊢
  split at h
  · rename_i he
    cases h
    simp [he]
  · cases h

end Sample

/-- Two frames that arrive in three pieces with an interruption. -/
theorem framing_round_trip_pieces :
    (readFrames Sample.oneHeader 3 [.bytes 0 [0], .interrupted,
        .bytes 0 [3, 0, 0, 0, 3, 42, 0, 7, 1, 2, 3, 0, 0, 0, 3, 0],
        .bytes 0 [0, 3, 42, 0, 7, 1, 2, 3]]).1 =
      [.ok (some Sample.request), .ok (some Sample.request), .ok none] := by
  have henc : encodeTransportFrame Sample.oneHeader Sample.names Sample.request =
      .ok [0, 0, 0, 3, 0, 0, 0, 3, 42, 0, 7, 1, 2, 3] := by decide +kernel
  have hn : ConsistencyNames Sample.names := ⟨rfl, rfl, rfl⟩
  have h := ((framing_round_trip hn Sample.oneHeader_faithful).2 [Sample.request, Sample.request] _
    (.cons henc (.cons henc .nil)) (by decide +kernel)).1
  exact h _ (fun e he => by simp at he) (by decide) 1

end SimAgentNet.Server
