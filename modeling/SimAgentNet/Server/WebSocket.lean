import SimAgentNet.Data.Reading
import SimAgentNet.Server.Framing

/-! # WebSocket framing

A message is two bytes, a length of none, two or eight bytes more, a mask if there is one, and the
payload. `websocket_round_trip` is about whole streams, as `framing_round_trip` is. -/

namespace SimAgentNet.Server.WebSocket

inductive WsMessage where
  | binary (payload : List UInt8)
  | close
deriving DecidableEq

def exceedsLimit : Error := .hostError "websocket payload exceeds size limit"

/-- The byte of each position, masked with the byte of the mask at that position. -/
def applyMask (mask payload : List UInt8) : List UInt8 :=
  payload.mapIdx fun index byte => byte ^^^ mask.getD (index % 4) 0

/-! ## Writing -/

/-- The mask of every message that is written masked. -/
def writeMask : List UInt8 := [0x13, 0x37, 0x42, 0x99]

/-- The second byte of a frame and its length. -/
def lengthBytes (maskBit : UInt8) (len : Nat) : List UInt8 :=
  if len ≤ 125 then [maskBit ||| .ofNat len]
  else if len ≤ 65535 then (maskBit ||| 126) :: BigEndian.bytes 2 len
  else (maskBit ||| 127) :: BigEndian.bytes 8 len

/-- What is written of a frame. -/
def writeWsFrame (opcode : UInt8) (payload : List UInt8) (masked : Bool) :
    Except Error (List UInt8) :=
  if payload.length > maxTransportFrameBytes then .error exceedsLimit
  else
    let maskBit : UInt8 := if masked then 0x80 else 0x00
    let header := (0x80 ||| opcode) :: lengthBytes maskBit payload.length
    if masked then .ok (header ++ writeMask ++ applyMask writeMask payload)
    else .ok (header ++ payload)

def writeWsBinary (payload : List UInt8) (masked : Bool) : Except Error (List UInt8) :=
  writeWsFrame 0x2 payload masked

def writeWsClose (masked : Bool) : Except Error (List UInt8) := writeWsFrame 0x8 [] masked

/-! ## Reading -/

/-- Fills a buffer, or finds the stream at its end. -/
def readExactOrEof (n : Nat) : Reader (Option (List UInt8)) := fun segments =>
  match fill n segments with
  | (.filled bytes, r) => (.ok (some bytes), r)
  | (.short [], r) => (.ok none, r)
  | (.short _, r) => (.error (.hostError "truncated websocket frame"), r)
  | (.failed e, r) => (.error (ioToHost e), r)

/-- The payload length that the second byte and those after it give. -/
def readPayloadLen (second : UInt8) : Reader Nat :=
  let payloadLen := (second &&& 0x7f).toNat
  if payloadLen = 126 then do return BigEndian.toNat (← readExact 2)
  else if payloadLen = 127 then do return BigEndian.toNat (← readExact 8)
  else return payloadLen

/-- Reads the rest of a frame after its two first bytes. -/
def readWsFrame (first second : UInt8) : Reader WsMessage :=
  if first &&& 0x80 = 0 then .fail (.hostError "fragmented websocket frames are not supported")
  else do
    let opcode := first &&& 0x0f
    let masked := second &&& 0x80 ≠ 0
    let payloadLen ← readPayloadLen second
    if payloadLen > maxTransportFrameBytes then .fail exceedsLimit
    else do
      let mask ← if masked then readExact 4 else pure [0, 0, 0, 0]
      let payload ← readExact payloadLen
      let payload := if masked then applyMask mask payload else payload
      if opcode = 0x2 then return .binary payload
      else if opcode = 0x8 then return .close
      else .fail (.hostError ("unsupported websocket opcode " ++ toString opcode.toNat))

def readWsMessage : Reader (Option WsMessage) := do
  match ← readExactOrEof 2 with
  | none => return none
  | some first => return some (← readWsFrame (first.getD 0 0) (first.getD 1 0))

/-! ## One frame -/

open Segment Reading

theorem applyMask_applyMask (mask payload : List UInt8) :
    applyMask mask (applyMask mask payload) = payload := by
  refine List.ext_getElem (by simp [applyMask]) fun i _ _ => ?_
  simp only [applyMask, List.getElem_mapIdx, UInt8.xor_assoc, UInt8.xor_self, UInt8.xor_zero]

theorem length_applyMask (mask payload : List UInt8) :
    (applyMask mask payload).length = payload.length := List.length_mapIdx

/-- The bits of the second byte: the mask bit and seven bits of length. -/
theorem second_bits (masked : Bool) (n : Nat) (h : n < 128) :
    (((if masked then 0x80 else 0x00) ||| UInt8.ofNat n) &&& 0x7f).toNat = n ∧
      (((if masked then 0x80 else 0x00) ||| UInt8.ofNat n) &&& 0x80 ≠ 0 ↔ masked = true) := by
  have hall : ∀ masked : Bool, ∀ n : Fin 128,
      (((if masked then 0x80 else 0x00) ||| UInt8.ofNat n) &&& 0x7f).toNat = n ∧
        (((if masked then 0x80 else 0x00) ||| UInt8.ofNat n) &&& 0x80 ≠ 0 ↔ masked = true) := by
    decide +kernel
  exact hall masked ⟨n, h⟩

/-- The second byte of a frame. -/
abbrev bit (masked : Bool) : UInt8 := if masked then 0x80 else 0x00

/-- What is written of a length is read back, in each of its three forms. -/
theorem lengthBytes_spec (masked : Bool) {len : Nat} (hlen : len ≤ maxTransportFrameBytes) :
    ∃ second more, lengthBytes (bit masked) len = second :: more ∧
      (second &&& 0x80 ≠ 0 ↔ masked = true) ∧ Consumes (readPayloadLen second) more len := by
  have hmax : maxTransportFrameBytes < 256 ^ 8 := by decide
  unfold lengthBytes
  by_cases hshort : len ≤ 125
  · obtain ⟨hvalue, hbit⟩ := second_bits masked len (by omega)
    refine ⟨_, [], if_pos hshort, hbit, ?_⟩
    simp only [readPayloadLen, hvalue]
    rw [if_neg (by omega), if_neg (by omega)]
    exact .pure len
  rw [if_neg hshort]
  by_cases hmedium : len ≤ 65535
  · have hbit := (second_bits masked 126 (by decide)).2
    have hvalue : ((bit masked ||| 126) &&& 0x7f).toNat = 126 :=
      (second_bits masked 126 (by decide)).1
    refine ⟨_, BigEndian.bytes 2 len, if_pos hmedium, hbit, ?_⟩
    have hread := consumes_readExact (BigEndian.bytes 2 len)
    have hback : BigEndian.toNat (BigEndian.bytes 2 len) = len := by
      rw [BigEndian.toNat_bytes]
      exact Nat.mod_eq_of_lt (by omega)
    rw [BigEndian.length_bytes] at hread
    simp only [readPayloadLen, hvalue, if_true]
    refine hread.bind_last ?_
    rw [hback]
    exact .pure len
  · have hbit := (second_bits masked 127 (by decide)).2
    have hvalue : ((bit masked ||| 127) &&& 0x7f).toNat = 127 :=
      (second_bits masked 127 (by decide)).1
    refine ⟨_, BigEndian.bytes 8 len, if_neg hmedium, hbit, ?_⟩
    have hread := consumes_readExact (BigEndian.bytes 8 len)
    have hback : BigEndian.toNat (BigEndian.bytes 8 len) = len := by
      rw [BigEndian.toNat_bytes]
      exact Nat.mod_eq_of_lt (by omega)
    rw [BigEndian.length_bytes] at hread
    simp only [readPayloadLen, hvalue, if_true]
    refine hread.bind_last ?_
    rw [hback]
    exact .pure len

namespace WsMessage

def opcode : WsMessage → UInt8
  | .binary _ => 0x2
  | .close => 0x8

def payload : WsMessage → List UInt8
  | .binary payload => payload
  | .close => []

/-- Writes the message as its kind is written. -/
def write (message : WsMessage) (masked : Bool) : Except Error (List UInt8) :=
  match message with
  | .binary payload => writeWsBinary payload masked
  | .close => writeWsClose masked

theorem write_eq (message : WsMessage) (masked : Bool) :
    message.write masked = writeWsFrame message.opcode message.payload masked := by
  cases message <;> rfl

/-- The bits of the first byte: the mark of a whole message and the opcode. -/
theorem first_bits (message : WsMessage) :
    (0x80 ||| message.opcode) &&& 0x80 ≠ 0 ∧
      (0x80 ||| message.opcode) &&& 0x0f = message.opcode := by
  cases message with
  | binary payload =>
    rw [opcode]
    decide
  | close =>
    rw [opcode]
    decide

end WsMessage

variable {message : WsMessage} {masked : Bool} {bytes : List UInt8}

theorem write_eq_ok_iff : message.write masked = .ok bytes ↔
    message.payload.length ≤ maxTransportFrameBytes ∧
      bytes = (0x80 ||| message.opcode) :: lengthBytes (bit masked) message.payload.length ++
        if masked then writeMask ++ applyMask writeMask message.payload
        else message.payload := by
  rw [WsMessage.write_eq, writeWsFrame, Except.guard_eq_ok_iff, not_lt]
  refine and_congr_right fun _ => ?_
  cases masked with
  | false => exact ⟨fun h => (Except.ok.inj h).symm, fun h => congrArg _ h.symm⟩
  | true =>
    simp only [if_true, List.append_assoc]
    exact ⟨fun h => (Except.ok.inj h).symm, fun h => congrArg _ h.symm⟩

/-- After its first bytes, the rest of a frame is consumed. -/
theorem consumes_readWsFrame (message : WsMessage) {second : UInt8} {more : List UInt8}
    (hlen : message.payload.length ≤ maxTransportFrameBytes)
    (hbit : second &&& 0x80 ≠ 0 ↔ masked = true)
    (hmore : Consumes (readPayloadLen second) more message.payload.length) :
    Consumes (readWsFrame (0x80 ||| message.opcode) second)
      (more ++ if masked then writeMask ++ applyMask writeMask message.payload
        else message.payload) message := by
  obtain ⟨hfin, hopcode⟩ := message.first_bits
  have hfinish : ∀ payload, payload = message.payload → Consumes
      (if message.opcode = 0x2 then pure (.binary payload)
        else if message.opcode = 0x8 then pure .close
        else .fail (.hostError ("unsupported websocket opcode " ++
          toString message.opcode.toNat)) : Reader WsMessage) [] message := by
    rintro payload rfl
    cases message with
    | binary payload => exact .pure _
    | close => exact .pure _
  rw [readWsFrame, if_neg hfin]
  refine hmore.bind ?_
  rw [if_neg (Nat.not_lt.mpr hlen), hopcode]
  cases masked with
  | false =>
    have hclear : ¬second &&& 0x80 ≠ 0 := fun h => Bool.false_ne_true (hbit.mp h)
    simp only [if_neg hclear, Bool.false_eq_true, if_false]
    rw [← List.nil_append message.payload]
    exact (Consumes.pure [0, 0, 0, 0]).bind
      ((consumes_readExact message.payload).bind_last (hfinish _ rfl))
  | true =>
    have hset : second &&& 0x80 ≠ 0 := hbit.mpr rfl
    simp only [if_pos hset, if_true]
    refine (consumes_readExact writeMask).bind ?_
    have hpayload := consumes_readExact (applyMask writeMask message.payload)
    rw [length_applyMask] at hpayload
    exact hpayload.bind_last (hfinish _ (applyMask_applyMask _ _))

/-- The two first bytes of a frame, and what reads the others. -/
theorem frame_parts (h : message.write masked = .ok bytes) :
    ∃ first second rest, bytes = [first, second] ++ rest ∧
      Consumes (do return some (← readWsFrame first second) : Reader (Option WsMessage)) rest
        (some message) := by
  obtain ⟨hlen, rfl⟩ := write_eq_ok_iff.mp h
  obtain ⟨second, more, hbytes, hbit, hmore⟩ := lengthBytes_spec masked hlen
  refine ⟨0x80 ||| message.opcode, second, _, ?_,
    (consumes_readWsFrame message hlen hbit hmore).bind_last (.pure _)⟩
  rw [hbytes]
  rfl

theorem reads_readExactOrEof (first second : UInt8) :
    Reads (readExactOrEof 2) [first, second] (some [first, second]) := by
  intro segments rest hclean hcontent
  obtain ⟨r, hr, hrest, hclean⟩ := fill_of_append hclean hcontent
  rw [List.length_cons, List.length_singleton] at hr
  exact ⟨r, by simp only [readExactOrEof, hr], hrest, hclean⟩

theorem readExactOrEof_short (part : List UInt8) (hne : part ≠ []) (h : part.length < n) :
    Ends (readExactOrEof n) part (.error (.hostError "truncated websocket frame")) := by
  intro segments hclean hcontent
  rw [← hcontent] at h hne
  obtain ⟨r, hr, hrest, hclean⟩ := fill_of_lt hclean h
  refine ⟨r, ?_, hrest, hclean⟩
  rw [readExactOrEof, hr]
  cases hbytes : content segments with
  | nil => exact absurd hbytes hne
  | cons b bs => rfl

theorem reads_readWsMessage (h : message.write masked = .ok bytes) :
    Reads readWsMessage bytes (some message) := by
  obtain ⟨first, second, rest, rfl, hrest⟩ := frame_parts h
  exact (reads_readExactOrEof first second).bind hrest.reads

theorem readWsMessage_end : Ends readWsMessage [] (.ok none) := by
  intro segments hclean hcontent
  have hlt : (content segments).length < 2 := by
    rw [hcontent]
    decide
  obtain ⟨r, hr, hrest, hclean⟩ := fill_of_lt hclean hlt
  rw [hcontent] at hr
  refine ⟨r, ?_, hrest, hclean⟩
  rw [readWsMessage, Effect.bind_apply, readExactOrEof, hr]
  rfl

/-- A stream that ends inside a frame gives an error. -/
theorem readWsMessage_cut (h : message.write masked = .ok bytes) (hpre : part <+: bytes)
    (hne : part ≠ []) (hcut : part ≠ bytes) : ∃ e, Ends readWsMessage part (.error e) := by
  obtain ⟨first, second, rest, rfl, hrest⟩ := frame_parts h
  refine (reads_readExactOrEof first second).cut (fun part hne hshort => ?_) hrest.starves hpre hne
    hcut
  exact ⟨_, readExactOrEof_short part hne hshort⟩

/-! ## Streams -/

/-- The messages, masked or not, each with what is written of it. -/
def Written (messages : List (WsMessage × Bool)) (encodings : List (List UInt8)) : Prop :=
  List.Forall₂ (fun m bytes => m.1.write m.2 = .ok bytes) messages encodings

/-- Messages within the size limit are written. However a stream of messages arrives, masked or
not, they are read and then the end of the stream; a stream that ends inside one of them gives an
error in its place, and no message. -/
theorem websocket_round_trip :
    (∀ message : WsMessage, message.payload.length ≤ maxTransportFrameBytes → ∀ masked,
      ∃ bytes, message.write masked = .ok bytes) ∧
    ∀ messages encodings, Written messages encodings →
      (∀ segments : List (Segment IoError), Clean segments →
        content segments = encodings.flatten → ∀ k,
          (readAll readWsMessage (messages.length + k) segments).1 =
            messages.map (fun m => .ok (some m.1)) ++ List.replicate k (.ok none)) ∧
      ∀ message masked bytes part, WsMessage.write message masked = .ok bytes → part <+: bytes →
        part ≠ [] → part ≠ bytes → ∀ segments : List (Segment IoError), Clean segments →
          content segments = encodings.flatten ++ part → ∀ k, ∃ e,
            (readAll readWsMessage (messages.length + (k + 1)) segments).1 =
              messages.map (fun m => .ok (some m.1)) ++ .error e :: List.replicate k (.ok none) := by
  refine ⟨fun message hlen masked => ⟨_, write_eq_ok_iff.mpr ⟨hlen, rfl⟩⟩, ?_⟩
  intro messages encodings hw
  have hreads : List.Forall₂ (fun a bytes => Reads readWsMessage bytes a)
      (messages.map fun m => some m.1) encodings :=
    List.forall₂_map_left_iff.mpr (hw.imp fun _ _ h => reads_readWsMessage h)
  have hvalues : (messages.map fun m => some m.1).map Except.ok =
      messages.map fun m => (.ok (some m.1) : Except Error (Option WsMessage)) := List.map_map
  constructor
  · intro segments hclean hcontent k
    have h := readAll_stream hreads readWsMessage_end hclean hcontent k
    rwa [List.length_map, hvalues] at h
  · intro message masked bytes part h hpre hne hcut segments hclean hcontent k
    obtain ⟨e, he⟩ := readWsMessage_cut h hpre hne hcut
    have h := readAll_stream_cut hreads readWsMessage_end he hclean hcontent k
    rw [List.length_map, hvalues] at h
    exact ⟨e, h⟩

end SimAgentNet.Server.WebSocket
