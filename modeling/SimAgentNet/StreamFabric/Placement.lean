import SimAgentNet.Data.Effect
import SimAgentNet.Server.Frame
import SimAgentNet.StreamFabric.Control

/-! # Placing a fragment on the server

The frames of a placement under its resource limits. The kernel, the stream core, the codec, the
site and the placement reports are parameters; their operations act on a world. -/

namespace SimAgentNet.StreamFabric
open Server (ServerFrame FrameKind FrameEnvelope)

/-! ## Requests and limits -/

structure StreamRemoteLimits where
  maxFramePayloadBytes : Nat
  maxStreamFrames : Nat
  maxInflightFrames : Nat
  maxDurationMs : Nat
  maxRateHz : Nat
  maxBinaryPayloadBytes : Nat

structure PlacementResourceLimits where
  maxCpuTimeMs : Nat
  maxMemoryBytes : Nat
  maxFramePayloadBytes : Nat
  maxStreamFrames : Nat
  maxDurationMs : Nat
  maxRateHz : Nat
  maxInflightWork : Nat

structure ServerPlacementRequest (Mode Profile : Type) where
  placementReport : Expr Mode
  outputProfile : Profile
  realtimePinned : Bool
  resourceLimits : PlacementResourceLimits

inductive PlacementCapability where
  | runNodeOnServer
  | remoteNetwork
  | remotePreview
  | remoteRender
  | hostDevice
deriving DecidableEq

inductive LatencyClass where
  | interactive
  | bufferedPreview
  | offlineRender
  | sampleExact
  | other (wireLabel : String)
deriving DecidableEq

/-- What a placement uses of the kernel, the stream core, the fragment and the site. An envelope may
fail to be made. -/
structure PlacementHost (World Mode Fragment Edge Envelope Profile Metadata Value : Type) where
  require : PlacementCapability → Effect Error World Unit
  encodeFramePayload : Symbol → Expr Mode → Effect Error World (List UInt8)
  validateRemote : StreamRemoteLimits → Except Error Unit
  effectiveFrameLimit : StreamRemoteLimits → Nat
  defaultBinaryPayloadBytes : Nat
  streamMetadata : Symbol → Nat → Metadata
  metadataId : Metadata → Symbol
  tableExpr : Metadata → Expr Mode
  dataEnvelope : Symbol → Symbol → Nat → Symbol → Expr Mode → Except Error Envelope
  diagnosticEnvelope : Symbol → Symbol → Nat → Symbol → String → Except Error Envelope
  envelopeWithProfile : Envelope → Profile → Except Error Envelope
  envelopeToExpr : Envelope → Expr Mode
  isRealtime : Profile → Bool
  latencyClass : Profile → LatencyClass
  profileName : Profile → Symbol
  fragmentId : Fragment → Symbol
  inputEdges : Fragment → List Edge
  outputEnvelopes : Fragment → List Envelope
  redactSymbol : Symbol → Symbol
  usesHostDevice : Fragment → ServerPlacementRequest Mode Profile → Bool
  requestReport : Fragment → ServerPlacementRequest Mode Profile → Expr Mode
  resultReport : Fragment → Expr Mode → Profile → Expr Mode
  acceptInputEdges : List Edge → Effect Error World Unit
  realizeFragmentNode : Fragment → Nat → Effect Error World Value
  valueExpr : Value → Effect Error World (Expr Mode)

/-- The world, and what the statements speak of: how often the node has been realized, and the
frames that were emitted without a check of the limits, each with the bytes accounted before it. -/
structure PlacementRun (World : Type) where
  world : World
  realized : Nat
  unchecked : List (ServerFrame × Nat)

/-- The variables of a placement. All payloads are in memory together, so their lengths add up
without saturating. -/
structure Progress where
  frames : List ServerFrame
  accountedPayloadBytes : Nat
  dataFrameCount : Nat
  sequence : Nat

def requestSymbol : Symbol := .qualified "stream/fabric" "server-placement-request"
def resultSymbol : Symbol := .qualified "stream/fabric" "server-placement-result"
def refusalDiagnosticKind : Symbol := .qualified "stream/fabric" "ServerPlacementRefused"

section
variable {World Mode Fragment Edge Envelope Profile Metadata Value : Type}
  (host : PlacementHost World Mode Fragment Edge Envelope Profile Metadata Value)

namespace PlacementResourceLimits

def remoteLimits (limits : PlacementResourceLimits) : StreamRemoteLimits where
  maxFramePayloadBytes := limits.maxFramePayloadBytes
  maxStreamFrames := limits.maxStreamFrames
  maxInflightFrames := limits.maxInflightWork
  maxDurationMs := limits.maxDurationMs
  maxRateHz := limits.maxRateHz
  maxBinaryPayloadBytes := host.defaultBinaryPayloadBytes

def validate (limits : PlacementResourceLimits) : Except Error Unit :=
  if limits.maxCpuTimeMs = 0 then .error (.eval "placement cpu-time limit must be positive")
  else if limits.maxMemoryBytes = 0 then .error (.eval "placement memory limit must be positive")
  else if limits.maxStreamFrames = 0 then
    .error (.eval "placement stream-size limit must be positive")
  else if limits.maxInflightWork = 0 then
    .error (.eval "placement inflight-work limit must be positive")
  else host.validateRemote (limits.remoteLimits host)

def effectiveStreamFrameLimit (limits : PlacementResourceLimits) : Nat :=
  host.effectiveFrameLimit (limits.remoteLimits host)

end PlacementResourceLimits

/-! ## Frames -/

/-- An operation of the host. -/
def inWorld (x : Effect Error World α) : Effect Error (PlacementRun World) α :=
  x.focus (·.world) fun world run => { run with world }

def unchecked (frame : ServerFrame) (accounted : Nat) : Effect Error (PlacementRun World) Unit :=
  .modify fun run => { run with unchecked := run.unchecked ++ [(frame, accounted)] }

def kindName : FrameKind → String
  | .request => "request"
  | .response => "response"
  | .error => "error"
  | .notify => "notify"
  | .streamStart => "stream-start"
  | .streamChunk => "stream-chunk"
  | .streamEnd => "stream-end"
  | .negotiate _ => "negotiate"
  | .ping => "ping"
  | .pong => "pong"
  | .lifecycle _ => "lifecycle"
  | .trigger _ _ => "trigger"
  | .role _ _ => "role"

def serverFrame (codec : Symbol) (kind : FrameKind) (envelope : FrameEnvelope)
    (payload : List UInt8) : ServerFrame where
  version := 1
  codec := codec
  msgId := none
  correlate := none
  kind := kind
  envelope := envelope
  payload := payload

def streamFrameFromExpr (codec : Symbol) (kind : FrameKind) (expr : Expr Mode)
    (envelope : FrameEnvelope) : Effect Error (PlacementRun World) ServerFrame :=
  match kind with
  | .streamStart | .streamChunk => do
    let payload ← inWorld (host.encodeFramePayload codec expr)
    return serverFrame codec kind envelope payload
  | _ => .fail (.eval ("stream expression frame helper cannot build frame kind " ++ kindName kind))

def streamEndFrame (codec : Symbol) (envelope : FrameEnvelope) : ServerFrame :=
  serverFrame codec .streamEnd envelope []

def packetId (streamId : Symbol) (sequence : Nat) : Symbol :=
  .qualified "stream/packet-id" (streamId.display ++ "#server-placement-" ++ toString sequence)

def dataFrame (codec : Symbol) (metadata : Metadata) (sequence : Nat) (kind : Symbol)
    (payload : Expr Mode) (frameEnvelope : FrameEnvelope) :
    Effect Error (PlacementRun World) ServerFrame := do
  let id := host.metadataId metadata
  let envelope ← .ofExcept (host.dataEnvelope id (packetId id sequence) sequence kind payload)
  streamFrameFromExpr host codec .streamChunk (host.envelopeToExpr envelope) frameEnvelope

def refusalFrame (codec : Symbol) (metadata : Metadata) (sequence : Nat) (message : String)
    (frameEnvelope : FrameEnvelope) : Effect Error (PlacementRun World) ServerFrame := do
  let id := host.metadataId metadata
  let envelope ← .ofExcept (host.diagnosticEnvelope id (packetId id sequence) sequence
    refusalDiagnosticKind message)
  streamFrameFromExpr host codec .streamChunk (host.envelopeToExpr envelope) frameEnvelope

/-- The refusal and the end of the stream. -/
def finishWithRefusal (codec : Symbol) (metadata : Metadata) (message : String)
    (frameEnvelope : FrameEnvelope) (progress : Progress) :
    Effect Error (PlacementRun World) (List ServerFrame) := do
  let refusal ← refusalFrame host codec metadata progress.sequence message frameEnvelope
  unchecked refusal progress.accountedPayloadBytes
  return progress.frames ++ [refusal, streamEndFrame codec frameEnvelope]

/-- The bytes accounted with the frame, or why it cuts the placement off. -/
def limitCutoffMessage (frame : ServerFrame) (limits : PlacementResourceLimits)
    (accountedPayloadBytes dataFrameCount frameCount : Nat) : Except String Nat :=
  if limits.effectiveStreamFrameLimit host ≤ dataFrameCount then
    .error ("server placement resource cutoff: stream-size limit exceeded after " ++
      toString dataFrameCount ++ " chunks")
  else if limits.maxInflightWork ≤ frameCount then
    .error ("server placement resource cutoff: inflight-work limit exceeded at " ++
      toString limits.maxInflightWork ++ " frames")
  else if limits.maxFramePayloadBytes < frame.payload.length then
    .error ("server placement resource cutoff: frame-size limit exceeded: " ++
      toString frame.payload.length ++ " bytes > " ++ toString limits.maxFramePayloadBytes ++
      " bytes")
  else
    let nextPayloadBytes := accountedPayloadBytes + frame.payload.length
    if limits.maxMemoryBytes < nextPayloadBytes then
      .error ("server placement resource cutoff: memory limit exceeded: " ++
        toString nextPayloadBytes ++ " bytes > " ++ toString limits.maxMemoryBytes ++ " bytes")
    else .ok nextPayloadBytes

/-- The frame is pushed, unless it cuts the placement off. -/
def pushFrame (limits : PlacementResourceLimits) (progress : Progress) (frame : ServerFrame) :
    Except String Progress :=
  match limitCutoffMessage host frame limits progress.accountedPayloadBytes
      progress.dataFrameCount progress.frames.length with
  | .error message => .error message
  | .ok accounted => .ok {
      frames := progress.frames ++ [frame]
      accountedPayloadBytes := accounted
      dataFrameCount := progress.dataFrameCount + 1
      sequence := progress.sequence + 1 }

def requireServerOutputProfile (profile : Profile) : Effect Error (PlacementRun World) Unit :=
  if host.isRealtime profile ∨ host.latencyClass profile = .sampleExact then
    .fail (.eval ("server placement refuses realtime profile " ++
      (host.profileName profile).display))
  else
    match host.latencyClass profile with
    | .bufferedPreview => inWorld (host.require .remotePreview)
    | .offlineRender => inWorld (host.require .remoteRender)
    | .interactive => return ()
    | .other label => .fail (.eval ("server placement does not support " ++ label ++ " latency"))
    | .sampleExact =>
      .fail (.eval "server placement does not support sample-exact latency")

/-! ## The placement -/

/-- The site's node, realized. -/
def realizeNode (fragment : Fragment) (maxCpuTimeMs : Nat) :
    Effect Error (PlacementRun World) Value := do
  .modify fun run => { run with realized := run.realized + 1 }
  inWorld (host.realizeFragmentNode fragment maxCpuTimeMs)

/-- One chunk for each output envelope, and the end of the stream. -/
def outputFrames (codec : Symbol) (metadata : Metadata) (limits : PlacementResourceLimits)
    (profile : Profile) (frameEnvelope : FrameEnvelope) :
    List Envelope → Progress → Effect Error (PlacementRun World) (List ServerFrame)
  | [], progress => return progress.frames ++ [streamEndFrame codec frameEnvelope]
  | envelope :: envelopes, progress => do
    let output ← .ofExcept (host.envelopeWithProfile envelope profile)
    let frame ← streamFrameFromExpr host codec .streamChunk (host.envelopeToExpr output)
      frameEnvelope
    match pushFrame host limits progress frame with
    | .error message => finishWithRefusal host codec metadata message frameEnvelope progress
    | .ok progress => outputFrames codec metadata limits profile frameEnvelope envelopes progress

/-- What follows the request report of a placement that may run on the server. -/
def realizedFrames (codec : Symbol) (metadata : Metadata) (fragment : Fragment)
    (request : ServerPlacementRequest Mode Profile) (frameEnvelope : FrameEnvelope)
    (progress : Progress) : Effect Error (PlacementRun World) (List ServerFrame) := do
  let limits := request.resourceLimits
  requireServerOutputProfile host request.outputProfile
  inWorld (host.acceptInputEdges (host.inputEdges fragment))
  let value ← realizeNode host fragment limits.maxCpuTimeMs
  let payload ← inWorld (host.valueExpr value)
  let resultFrame ← dataFrame host codec metadata progress.sequence resultSymbol
    (host.resultReport fragment payload request.outputProfile) frameEnvelope
  match pushFrame host limits progress resultFrame with
  | .error message => finishWithRefusal host codec metadata message frameEnvelope progress
  | .ok progress =>
    outputFrames host codec metadata limits request.outputProfile frameEnvelope
      (host.outputEnvelopes fragment) progress

def placementMetadata (fragment : Fragment) (limits : PlacementResourceLimits) : Metadata :=
  host.streamMetadata
    (host.redactSymbol (.qualified "stream/server-placement" (host.fragmentId fragment).display))
    limits.maxInflightWork

def requireHostDeviceAccess (fragment : Fragment) (request : ServerPlacementRequest Mode Profile) :
    Effect Error (PlacementRun World) Unit :=
  if host.usesHostDevice fragment request then inWorld (host.require .hostDevice) else pure ()

def serverPlacementStreamFrames (fragment : Fragment)
    (request : ServerPlacementRequest Mode Profile) (codec : Symbol)
    (frameEnvelope : FrameEnvelope) : Effect Error (PlacementRun World) (List ServerFrame) := do
  inWorld (host.require .runNodeOnServer)
  inWorld (host.require .remoteNetwork)
  requireHostDeviceAccess host fragment request
  let limits := request.resourceLimits
  .ofExcept (limits.validate host)
  let metadata := placementMetadata host fragment limits
  let start ← streamFrameFromExpr host codec .streamStart (host.tableExpr metadata) frameEnvelope
  unchecked start 0
  let progress : Progress := ⟨[start], start.payload.length, 0, 0⟩
  let requestFrame ← dataFrame host codec metadata progress.sequence requestSymbol
    (host.requestReport fragment request) frameEnvelope
  match pushFrame host limits progress requestFrame with
  | .error message => finishWithRefusal host codec metadata message frameEnvelope progress
  | .ok progress =>
    if request.realtimePinned then
      finishWithRefusal host codec metadata ("server placement refused fragment " ++
        (host.redactSymbol (host.fragmentId fragment)).display ++
        ": stream/site/server cannot host a realtime-pinned node") frameEnvelope progress
    else realizedFrames host codec metadata fragment request frameEnvelope progress

/-! ## What a placement keeps -/

def payloadBytes (frames : List ServerFrame) : Nat := (frames.map (·.payload.length)).sum

@[simp] theorem payloadBytes_nil : payloadBytes [] = 0 := rfl

@[simp] theorem payloadBytes_cons (frame : ServerFrame) (frames : List ServerFrame) :
    payloadBytes (frame :: frames) = frame.payload.length + payloadBytes frames := rfl

@[simp] theorem payloadBytes_append (frames frames' : List ServerFrame) :
    payloadBytes (frames ++ frames') = payloadBytes frames + payloadBytes frames' := by
  simp [payloadBytes]

/-- The frames are a stream that was started and has its end: all payloads and their sum are within
the limits, and so are the frames before a refusal or the end. The node has been realized at most
once, and not at all if the request is pinned or its report, the first chunk, was refused. -/
structure Obeys (request : ServerPlacementRequest Mode Profile) (frames : List ServerFrame)
    (run : PlacementRun World) : Prop where
  shape : ∃ (start : ServerFrame) (chunks refusals : List ServerFrame) (finish : ServerFrame),
    frames = start :: chunks ++ refusals ++ [finish] ∧ run.unchecked.map (·.1) = start :: refusals ∧
    start.kind = .streamStart ∧ (∀ frame ∈ chunks ++ refusals, frame.kind = .streamChunk) ∧
    finish.kind = .streamEnd ∧ refusals.length ≤ 1 ∧
    (start :: chunks).length ≤ request.resourceLimits.maxInflightWork ∧
    (request.realtimePinned = true ∨ chunks = [] → run.realized = 0)
  payload : ∀ frame ∈ frames, frame.payload.length ≤ request.resourceLimits.maxFramePayloadBytes
  memory : payloadBytes frames ≤ request.resourceLimits.maxMemoryBytes
  realized : run.realized ≤ 1

/-- The frame was emitted without a check and is within the limits all the same. -/
def Fits (limits : PlacementResourceLimits) (frame : ServerFrame) (accounted : Nat) : Prop :=
  frame.payload.length ≤ limits.maxFramePayloadBytes ∧
    accounted + frame.payload.length ≤ limits.maxMemoryBytes

/-- The frames so far: the start, which has not been checked, and chunks, which have. -/
structure Within (limits : PlacementResourceLimits) (start : ServerFrame) (chunks : List ServerFrame)
    (progress : Progress) : Prop where
  frames : progress.frames = start :: chunks
  started : start.kind = .streamStart
  checked : ∀ chunk ∈ chunks, chunk.kind = .streamChunk ∧
    chunk.payload.length ≤ limits.maxFramePayloadBytes
  accounted : progress.accountedPayloadBytes = payloadBytes (start :: chunks)
  memory : chunks ≠ [] → payloadBytes (start :: chunks) ≤ limits.maxMemoryBytes
  inflight : (start :: chunks).length ≤ limits.maxInflightWork

/-- The frames are the start and chunks within the limits, perhaps a refusal, and the end. -/
def Placed (limits : PlacementResourceLimits) (start : ServerFrame) (chunks : List ServerFrame)
    (run run' : PlacementRun World) (frames : List ServerFrame) : Prop :=
  ∃ progress refusals, ∃ finish : ServerFrame, Within limits start chunks progress ∧
    frames = progress.frames ++ refusals.map Prod.fst ++ [finish] ∧
    run'.unchecked = run.unchecked ++ refusals ∧ refusals.length ≤ 1 ∧
    (∀ refusal ∈ refusals, refusal.1.kind = .streamChunk ∧
      refusal.2 = progress.accountedPayloadBytes) ∧
    finish.kind = .streamEnd ∧ finish.payload = []

/-- The operation neither realized the node nor emitted an unchecked frame. -/
structure Quiet (run run' : PlacementRun World) : Prop where
  realized : run'.realized = run.realized
  unchecked : run'.unchecked = run.unchecked

theorem Quiet.trans {run run' run'' : PlacementRun World} (h : Quiet run run')
    (h' : Quiet run' run'') : Quiet run run'' :=
  ⟨h'.realized.trans h.realized, h'.unchecked.trans h.unchecked⟩

theorem inWorld_quiet {x : Effect Error World α} {run : PlacementRun World}
    (h : inWorld x run = (.ok a, run')) : Quiet run run' := by
  obtain ⟨-, rfl⟩ := Prod.mk.inj h
  exact ⟨rfl, rfl⟩

variable {host}

theorem streamFrameFromExpr_spec {kind : FrameKind} (hkind : kind = .streamStart ∨ kind = .streamChunk)
    {run : PlacementRun World} (h : streamFrameFromExpr host codec kind expr envelope run =
      (.ok frame, run')) : frame.kind = kind ∧ Quiet run run' := by
  rcases hkind with rfl | rfl <;>
  · obtain ⟨payload, s, hpayload, hframe⟩ := Effect.bind_eq_ok_iff.mp h
    cases hframe
    exact ⟨rfl, inWorld_quiet hpayload⟩

theorem dataFrame_spec {sequence : Nat} {run : PlacementRun World}
    (h : dataFrame host codec metadata sequence kind payload envelope run = (.ok frame, run')) :
    frame.kind = .streamChunk ∧ Quiet run run' := by
  obtain ⟨made, s, hmade, hframe⟩ := Effect.bind_eq_ok_iff.mp h
  obtain ⟨-, rfl⟩ := Effect.ofExcept_eq_ok_iff.mp hmade
  exact streamFrameFromExpr_spec (.inr rfl) hframe

theorem refusalFrame_spec {sequence : Nat} {run : PlacementRun World}
    (h : refusalFrame host codec metadata sequence message envelope run = (.ok frame, run')) :
    frame.kind = .streamChunk ∧ Quiet run run' := by
  obtain ⟨made, s, hmade, hframe⟩ := Effect.bind_eq_ok_iff.mp h
  obtain ⟨-, rfl⟩ := Effect.ofExcept_eq_ok_iff.mp hmade
  exact streamFrameFromExpr_spec (.inr rfl) hframe

/-- A frame that is pushed is within the limits. -/
theorem limitCutoffMessage_ok {limits : PlacementResourceLimits}
    (h : limitCutoffMessage host frame limits accounted count frameCount = .ok next) :
    frameCount < limits.maxInflightWork ∧
      frame.payload.length ≤ limits.maxFramePayloadBytes ∧
      next = accounted + frame.payload.length ∧ next ≤ limits.maxMemoryBytes := by
  obtain ⟨-, h⟩ := Except.guard_eq_ok_iff.mp h
  obtain ⟨hinflight, h⟩ := Except.guard_eq_ok_iff.mp h
  obtain ⟨hframe, h⟩ := Except.guard_eq_ok_iff.mp h
  obtain ⟨hmemory, h⟩ := Except.guard_eq_ok_iff.mp h
  cases h
  exact ⟨Nat.lt_of_not_le hinflight, Nat.le_of_not_lt hframe, rfl, Nat.le_of_not_lt hmemory⟩

theorem Within.push {limits : PlacementResourceLimits} (hw : Within limits start chunks progress)
    (hkind : frame.kind = .streamChunk) (h : pushFrame host limits progress frame = .ok progress') :
    Within limits start (chunks ++ [frame]) progress' := by
  rw [pushFrame] at h
  split at h
  · cases h
  · rename_i accounted hcheck
    obtain ⟨hinflight, hframe, hnext, hmemory⟩ := limitCutoffMessage_ok hcheck
    cases h
    have htotal : accounted = payloadBytes (start :: (chunks ++ [frame])) := by
      rw [hnext, hw.accounted]
      simp [Nat.add_assoc]
    refine ⟨by rw [hw.frames]; rfl, hw.started, ?_, htotal, fun _ => htotal ▸ hmemory, ?_⟩
    · rw [List.forall_mem_append, List.forall_mem_singleton]
      exact ⟨hw.checked, hkind, hframe⟩
    · rw [hw.frames] at hinflight
      simpa using hinflight

theorem finishWithRefusal_spec {run : PlacementRun World}
    {limits : PlacementResourceLimits} (hw : Within limits start chunks progress)
    (h : finishWithRefusal host codec metadata message envelope progress run = (.ok frames, run')) :
    Placed limits start chunks run run' frames ∧ run'.realized = run.realized := by
  obtain ⟨refusal, s, hrefusal, h⟩ := Effect.bind_eq_ok_iff.mp h
  obtain ⟨hkind, hquiet⟩ := refusalFrame_spec hrefusal
  obtain ⟨_, s', hunchecked, h⟩ := Effect.bind_eq_ok_iff.mp h
  cases hunchecked
  cases h
  refine ⟨⟨progress, [(refusal, progress.accountedPayloadBytes)],
    streamEndFrame codec envelope, hw, ?_, ?_, le_refl 1, ?_, rfl, rfl⟩, hquiet.realized⟩
  · simp
  · exact congrArg (· ++ _) hquiet.unchecked
  · rw [List.forall_mem_singleton]
    exact ⟨hkind, rfl⟩

theorem Placed.of_unchecked {limits : PlacementResourceLimits} {run run' run'' : PlacementRun World}
    (h : Placed limits start chunks run' run'' frames) (hu : run'.unchecked = run.unchecked) :
    Placed limits start chunks run run'' frames := by
  obtain ⟨progress, refusals, finish, hw, hframes, hunchecked, hrest⟩ := h
  exact ⟨progress, refusals, finish, hw, hframes, hu ▸ hunchecked, hrest⟩

theorem outputFrames_spec {limits : PlacementResourceLimits} {envelopes : List Envelope}
    {run : PlacementRun World} (hw : Within limits start chunks progress)
    (h : outputFrames host codec metadata limits profile envelope envelopes progress run =
      (.ok frames, run')) :
    (∃ more, Placed limits start (chunks ++ more) run run' frames) ∧
      run'.realized = run.realized := by
  induction envelopes generalizing chunks progress run with
  | nil =>
    obtain ⟨hframes, rfl⟩ := Prod.mk.inj h
    cases hframes
    refine ⟨⟨[], progress, [], streamEndFrame codec envelope, ?_, ?_, ?_, Nat.zero_le 1, ?_, rfl,
      rfl⟩, rfl⟩
    · rwa [List.append_nil]
    · rw [List.map_nil, List.append_nil]
    · rw [List.append_nil]
    · intro refusal hm
      cases hm
  | cons first envelopes ih =>
    obtain ⟨output, s, houtput, hmade⟩ := Effect.bind_eq_ok_iff.mp h
    obtain ⟨-, rfl⟩ := Effect.ofExcept_eq_ok_iff.mp houtput
    obtain ⟨frame, s', hframe, hpushed⟩ := Effect.bind_eq_ok_iff.mp hmade
    obtain ⟨hkind, hquiet⟩ := streamFrameFromExpr_spec (.inr rfl) hframe
    cases hpush : pushFrame host limits progress frame with
    | error message =>
      simp only [hpush] at hpushed
      obtain ⟨hplaced, hrealized⟩ := finishWithRefusal_spec hw hpushed
      refine ⟨⟨[], ?_⟩, hrealized.trans hquiet.realized⟩
      rw [List.append_nil]
      exact hplaced.of_unchecked hquiet.unchecked
    | ok progress' =>
      simp only [hpush] at hpushed
      obtain ⟨⟨more, hplaced⟩, hrealized⟩ := ih (hw.push hkind hpush) hpushed
      refine ⟨⟨frame :: more, ?_⟩, hrealized.trans hquiet.realized⟩
      rw [List.append_assoc] at hplaced
      exact hplaced.of_unchecked hquiet.unchecked

theorem requireServerOutputProfile_quiet {run : PlacementRun World}
    (h : requireServerOutputProfile host profile run = (.ok a, run')) : Quiet run run' := by
  rw [requireServerOutputProfile] at h
  split at h
  · cases h
  · cases hlatency : host.latencyClass profile with
    | bufferedPreview | offlineRender =>
      simp only [hlatency] at h
      exact inWorld_quiet h
    | interactive =>
      simp only [hlatency] at h
      cases h
      exact ⟨rfl, rfl⟩
    | other | sampleExact =>
      simp only [hlatency] at h
      cases h

theorem requireHostDeviceAccess_quiet {request : ServerPlacementRequest Mode Profile}
    {run : PlacementRun World}
    (h : requireHostDeviceAccess host fragment request run = (.ok a, run')) : Quiet run run' := by
  rw [requireHostDeviceAccess] at h
  split at h
  · exact inWorld_quiet h
  · cases h
    exact ⟨rfl, rfl⟩

theorem realizeNode_spec {run : PlacementRun World}
    (h : realizeNode host fragment maxCpuTimeMs run = (.ok value, run')) :
    run'.realized = run.realized + 1 ∧ run'.unchecked = run.unchecked := by
  obtain ⟨_, s, hcount, hrealize⟩ := Effect.bind_eq_ok_iff.mp h
  obtain ⟨-, rfl⟩ := Prod.mk.inj hcount
  have hquiet := inWorld_quiet hrealize
  exact ⟨hquiet.realized, hquiet.unchecked⟩

/-- A placement that is not pinned realizes the node once and places its frames after the request
report. -/
theorem realizedFrames_spec {request : ServerPlacementRequest Mode Profile}
    {run : PlacementRun World} (hw : Within request.resourceLimits start chunks progress)
    (h : realizedFrames host codec metadata fragment request envelope progress run =
      (.ok frames, run')) :
    (∃ more, Placed request.resourceLimits start (chunks ++ more) run run' frames) ∧
      run'.realized = run.realized + 1 := by
  obtain ⟨_, s₁, hprofile, h₁⟩ := Effect.bind_eq_ok_iff.mp h
  obtain ⟨_, s₂, hedges, h₂⟩ := Effect.bind_eq_ok_iff.mp h₁
  obtain ⟨value, s₃, hvalue, h₃⟩ := Effect.bind_eq_ok_iff.mp h₂
  obtain ⟨payload, s₄, hpayload, h₄⟩ := Effect.bind_eq_ok_iff.mp h₃
  obtain ⟨resultFrame, s₅, hresult, h₅⟩ := Effect.bind_eq_ok_iff.mp h₄
  obtain ⟨hkind, hmade⟩ := dataFrame_spec hresult
  have hbefore := (requireServerOutputProfile_quiet hprofile).trans (inWorld_quiet hedges)
  obtain ⟨hcount, hsame⟩ := realizeNode_spec hvalue
  have hafter := (inWorld_quiet hpayload).trans hmade
  have hrealized : s₅.realized = run.realized + 1 := by
    rw [hafter.realized, hcount, hbefore.realized]
  have hunchecked : s₅.unchecked = run.unchecked := by
    rw [hafter.unchecked, hsame, hbefore.unchecked]
  cases hpush : pushFrame host request.resourceLimits progress resultFrame with
  | error message =>
    simp only [hpush] at h₅
    obtain ⟨hplaced, hsame⟩ := finishWithRefusal_spec hw h₅
    refine ⟨⟨[], ?_⟩, hsame.trans hrealized⟩
    rw [List.append_nil]
    exact hplaced.of_unchecked hunchecked
  | ok progress' =>
    simp only [hpush] at h₅
    obtain ⟨⟨more, hplaced⟩, hsame⟩ := outputFrames_spec (hw.push hkind hpush) h₅
    rw [List.append_assoc] at hplaced
    exact ⟨⟨_, hplaced.of_unchecked hunchecked⟩, hsame.trans hrealized⟩

theorem validate_inflight {limits : PlacementResourceLimits} (h : limits.validate host = .ok ()) :
    1 ≤ limits.maxInflightWork := by
  obtain ⟨-, h⟩ := Except.guard_eq_ok_iff.mp h
  obtain ⟨-, h⟩ := Except.guard_eq_ok_iff.mp h
  obtain ⟨-, h⟩ := Except.guard_eq_ok_iff.mp h
  obtain ⟨hinflight, -⟩ := Except.guard_eq_ok_iff.mp h
  exact Nat.one_le_iff_ne_zero.mpr hinflight

/-- A placement that returns its frames has placed them from their start on, and has realized the
node at most once, and not if the request is pinned or its report cut off. -/
theorem serverPlacementStreamFrames_spec {request : ServerPlacementRequest Mode Profile}
    {run : PlacementRun World} (hu : run.unchecked = [])
    (h : serverPlacementStreamFrames host fragment request codec envelope run =
      (.ok frames, run')) :
    ∃ start chunks, Placed request.resourceLimits start chunks
        { run with unchecked := [(start, 0)] } run' frames ∧
      run'.realized ≤ run.realized + 1 ∧
      (request.realtimePinned = true ∨ chunks = [] → run'.realized = run.realized) := by
  obtain ⟨_, s₁, hserver, h₁⟩ := Effect.bind_eq_ok_iff.mp h
  obtain ⟨_, s₂, hnetwork, h₂⟩ := Effect.bind_eq_ok_iff.mp h₁
  obtain ⟨_, s₃, hdevice, h₃⟩ := Effect.bind_eq_ok_iff.mp h₂
  obtain ⟨_, s₄, hlimits, h₄⟩ := Effect.bind_eq_ok_iff.mp h₃
  obtain ⟨start, s₅, hstart, h₅⟩ := Effect.bind_eq_ok_iff.mp h₄
  obtain ⟨_, s₆, hlog, h₆⟩ := Effect.bind_eq_ok_iff.mp h₅
  obtain ⟨requestFrame, s₇, hrequest, h₇⟩ := Effect.bind_eq_ok_iff.mp h₆
  obtain ⟨hvalid, rfl⟩ := Effect.ofExcept_eq_ok_iff.mp hlimits
  obtain ⟨-, rfl⟩ := Prod.mk.inj hlog
  obtain ⟨hstarted, hstarting⟩ := streamFrameFromExpr_spec (.inl rfl) hstart
  obtain ⟨hkind, hmade⟩ := dataFrame_spec hrequest
  have hquiet := (((inWorld_quiet hserver).trans (inWorld_quiet hnetwork)).trans
    (requireHostDeviceAccess_quiet hdevice)).trans hstarting
  have hunchecked : s₇.unchecked = [(start, 0)] := by
    have hlogged : s₅.unchecked = [] := hquiet.unchecked.trans hu
    rw [hmade.unchecked]
    exact congrArg (· ++ [(start, 0)]) hlogged
  have hrealized : s₇.realized = run.realized := hmade.realized.trans hquiet.realized
  have hw : Within request.resourceLimits start [] ⟨[start], start.payload.length, 0, 0⟩ :=
    ⟨rfl, hstarted, List.forall_mem_nil _, by simp, fun h => absurd rfl h,
      validate_inflight hvalid⟩
  cases hpush : pushFrame host request.resourceLimits ⟨[start], start.payload.length, 0, 0⟩
      requestFrame with
  | error message =>
    simp only [hpush] at h₇
    obtain ⟨hplaced, hsame⟩ := finishWithRefusal_spec hw h₇
    refine ⟨start, [], hplaced.of_unchecked hunchecked, ?_, fun _ => hsame.trans hrealized⟩
    rw [hsame, hrealized]
    exact Nat.le_succ _
  | ok progress =>
    simp only [hpush] at h₇
    split at h₇
    · obtain ⟨hplaced, hsame⟩ := finishWithRefusal_spec (hw.push hkind hpush) h₇
      refine ⟨start, _, hplaced.of_unchecked hunchecked, ?_, fun _ => hsame.trans hrealized⟩
      rw [hsame, hrealized]
      exact Nat.le_succ _
    · rename_i hpinned
      obtain ⟨⟨more, hplaced⟩, hsame⟩ := realizedFrames_spec (hw.push hkind hpush) h₇
      refine ⟨start, _, hplaced.of_unchecked hunchecked, ?_, ?_⟩
      · rw [hsame, hrealized]
      · rintro (h | h)
        · exact absurd h hpinned
        · simp at h

/-- All payloads are within the limits exactly when those are that were not checked. -/
theorem Placed.within_iff {limits : PlacementResourceLimits} {run run' : PlacementRun World}
    (h : Placed limits start chunks { run with unchecked := [(start, 0)] } run' frames) :
    (∀ frame ∈ frames, frame.payload.length ≤ limits.maxFramePayloadBytes) ∧
        payloadBytes frames ≤ limits.maxMemoryBytes ↔
      ∀ entry ∈ run'.unchecked, Fits limits entry.1 entry.2 := by
  obtain ⟨progress, refusals, finish, hw, hframes, hunchecked, hone, hrefusals, -, hempty⟩ := h
  have hchunks : ∀ chunk ∈ chunks, chunk.payload.length ≤ limits.maxFramePayloadBytes :=
    fun chunk hm => (hw.checked chunk hm).2
  have hstart : start.payload.length ≤ payloadBytes (start :: chunks) := Nat.le_add_right _ _
  rw [hunchecked, List.singleton_append, List.forall_mem_cons]
  cases refusals with
  | nil =>
    have htotal : payloadBytes frames = payloadBytes (start :: chunks) := by
      rw [hframes, hw.frames]
      simp [hempty]
    constructor
    · rintro ⟨hall, hmemory⟩
      refine ⟨⟨hall start ?_, ?_⟩, List.forall_mem_nil _⟩
      · rw [hframes, hw.frames]
        exact List.mem_cons_self
      · rw [Nat.zero_add]
        exact hstart.trans (htotal ▸ hmemory)
    · rintro ⟨⟨hsize, hmemory⟩, -⟩
      refine ⟨?_, ?_⟩
      · rw [hframes, hw.frames]
        simp only [List.map_nil, List.append_nil, List.forall_mem_append, List.forall_mem_cons]
        exact ⟨⟨hsize, hchunks⟩, by rw [hempty]; exact Nat.zero_le _, List.forall_mem_nil _⟩
      · rw [htotal]
        rcases List.eq_nil_or_concat chunks with hnil | ⟨_, _, hsome⟩
        · subst hnil
          simpa using hmemory
        · apply hw.memory
          rw [hsome]
          simp
  | cons refusal rest =>
    have hrest : rest = [] := List.length_eq_zero_iff.mp (Nat.le_zero.mp (Nat.le_of_succ_le_succ hone))
    subst hrest
    obtain ⟨-, hbefore⟩ := hrefusals refusal List.mem_cons_self
    have htotal : payloadBytes frames = refusal.2 + refusal.1.payload.length := by
      rw [hbefore, hw.accounted, hframes, hw.frames]
      simp [hempty, Nat.add_assoc]
    constructor
    · rintro ⟨hall, hmemory⟩
      refine ⟨⟨hall start ?_, ?_⟩, ?_⟩
      · rw [hframes, hw.frames]
        exact List.mem_cons_self
      · rw [Nat.zero_add]
        refine hstart.trans ?_
        rw [← hw.accounted, ← hbefore]
        exact (Nat.le_add_right _ _).trans (htotal ▸ hmemory)
      · rw [List.forall_mem_singleton]
        refine ⟨hall refusal.1 ?_, htotal ▸ hmemory⟩
        rw [hframes]
        simp
    · rintro ⟨⟨hsize, -⟩, hrefusal⟩
      obtain ⟨hlen, hroom⟩ := hrefusal refusal List.mem_cons_self
      refine ⟨?_, htotal ▸ hroom⟩
      rw [hframes, hw.frames]
      simp only [List.map_cons, List.map_nil, List.forall_mem_append, List.forall_mem_cons]
      exact ⟨⟨⟨hsize, hchunks⟩, hlen, List.forall_mem_nil _⟩, by rw [hempty]; exact Nat.zero_le _,
        List.forall_mem_nil _⟩

/-- A placement that returns its frames obeys its limits exactly when the frames that it emits
without a check, the start and a refusal, are within them. -/
theorem placement_obeys_iff {request : ServerPlacementRequest Mode Profile} {world : World}
    (h : serverPlacementStreamFrames host fragment request codec envelope ⟨world, 0, []⟩ =
      (.ok frames, run)) :
    Obeys request frames run ↔
      ∀ entry ∈ run.unchecked, Fits request.resourceLimits entry.1 entry.2 := by
  obtain ⟨start, chunks, hplaced, honce, hnever⟩ := serverPlacementStreamFrames_spec rfl h
  constructor
  · intro hobeys
    exact hplaced.within_iff.mp ⟨hobeys.payload, hobeys.memory⟩
  · intro hfits
    obtain ⟨hpayload, hmemory⟩ := hplaced.within_iff.mpr hfits
    obtain ⟨progress, refusals, finish, hw, hframes, hunchecked, hone, hrefusals, hend, -⟩ := hplaced
    refine ⟨⟨start, chunks, refusals.map Prod.fst, finish, ?_, ?_, hw.started, ?_, hend, ?_,
      hw.inflight, hnever⟩, hpayload, hmemory, honce⟩
    · rw [hframes, hw.frames]
    · rw [hunchecked]
      rfl
    · rw [List.forall_mem_append, List.forall_mem_map]
      exact ⟨fun chunk hm => (hw.checked chunk hm).1, fun refusal hm => (hrefusals refusal hm).1⟩
    · rwa [List.length_map]

end

/-! ## A start that is too large -/

namespace PlacementSample

/-- A host without checks whose codec writes two bytes for every expression. -/
def host : PlacementHost Unit Unit Unit Unit Unit Unit Unit Unit where
  require _ := pure ()
  encodeFramePayload _ _ := pure [0, 0]
  validateRemote _ := .ok ()
  effectiveFrameLimit limits := limits.maxStreamFrames
  defaultBinaryPayloadBytes := 0
  streamMetadata _ _ := ()
  metadataId _ := .new "s"
  tableExpr _ := .nil
  dataEnvelope _ _ _ _ _ := .ok ()
  diagnosticEnvelope _ _ _ _ _ := .ok ()
  envelopeWithProfile _ _ := .ok ()
  envelopeToExpr _ := .nil
  isRealtime _ := false
  latencyClass _ := .interactive
  profileName _ := .new "p"
  fragmentId _ := .new "f"
  inputEdges _ := []
  outputEnvelopes _ := []
  redactSymbol symbol := symbol
  usesHostDevice _ _ := false
  requestReport _ _ := .nil
  resultReport _ _ _ := .nil
  acceptInputEdges _ := pure ()
  realizeFragmentNode _ _ := pure ()
  valueExpr _ := pure .nil

def request (maxFramePayloadBytes : Nat) : ServerPlacementRequest Unit Unit where
  placementReport := .nil
  outputProfile := ()
  realtimePinned := true
  resourceLimits := ⟨1, 100, maxFramePayloadBytes, 10, 1, 1, 10⟩

def envelope : FrameEnvelope := ⟨none, .localFirst, false, [], none, none, 0, none⟩

def placed (maxFramePayloadBytes : Nat) : Except Error (List ServerFrame) × PlacementRun Unit :=
  serverPlacementStreamFrames host () (request maxFramePayloadBytes) (.new "c") envelope ⟨(), 0, []⟩

end PlacementSample

/-- A pinned request is refused within limits that every frame keeps. -/
theorem pinned_obeys : ∃ frames run, PlacementSample.placed 2 = (.ok frames, run) ∧
    (Obeys (PlacementSample.request 2) frames run ↔
      ∀ entry ∈ run.unchecked, Fits (PlacementSample.request 2).resourceLimits entry.1 entry.2) := by
  have hrun : ∃ frames run, PlacementSample.placed 2 = (.ok frames, run) := ⟨_, _, rfl⟩
  obtain ⟨frames, run, hrun⟩ := hrun
  exact ⟨frames, run, hrun, placement_obeys_iff hrun⟩

/-- The start of the stream is emitted whatever its size. -/
theorem start_exceeds_limit : ∃ frames run, PlacementSample.placed 1 = (.ok frames, run) ∧
    ¬Obeys (PlacementSample.request 1) frames run := by
  refine ⟨_, _, rfl, fun hobeys => ?_⟩
  have hstart := hobeys.payload _ List.mem_cons_self
  exact absurd hstart (by decide)

end SimAgentNet.StreamFabric
