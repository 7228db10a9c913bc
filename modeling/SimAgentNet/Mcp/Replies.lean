import SimAgentNet.Mcp.Dispatch
import SimAgentNet.Mcp.Replay

/-! # One final reply

A request is answered by notifications and one final reply under its own id, unless it is replayed:
then it gets what was recorded, and recording takes secrets out of ids too. -/

namespace SimAgentNet.Mcp
variable {Mode Inner Value Item Media : Type}

section
variable [DecidableEq Mode] (server : McpServer Mode Inner)

/-- What is replayed to a request once it has been admitted. -/
def replays (session : McpSession Mode Inner) (request : McpRequest Mode) :
    Except Error (Option (List (McpEnvelope Mode))) :=
  match session.cassette with
  | none => .ok none
  | some cassette => (cassette.replay server.codec (.request request)).1

/-- What handling a request comes to: its answer and the gate after it. -/
inductive Handled (session : McpSession Mode Inner) (request : McpRequest Mode) :
    Except Error (Answer Mode) → Gate → Prop
  | denied : session.gate.admitRequest (keyOf server request) = .error limit →
    Handled session request (.ok (deniedAnswer server request limit)) session.gate
  | unreplayed : session.gate.admitRequest (keyOf server request) = .ok gate →
    replays server session request = .error error →
    Handled session request (.error error) gate
  | replayed : session.gate.admitRequest (keyOf server request) = .ok gate →
    replays server session request = .ok (some replies) →
    Handled session request (.ok ⟨.replayed, replies⟩) (gate.endRequest (keyOf server request))
  | cancelled : session.gate.admitRequest (keyOf server request) = .ok gate →
    replays server session request = .ok none →
    Handled session request (.ok (cancelledAnswer server request))
      (gate.endRequest (keyOf server request))
  | dispatched : session.gate.admitRequest (keyOf server request) = .ok gate →
    replays server session request = .ok none →
    Handled session request
      (.ok ⟨.dispatched, (dispatched server session.gate session.inner request).1⟩)
      (gate.endRequest (keyOf server request))
  | unrecorded : session.gate.admitRequest (keyOf server request) = .ok gate →
    replays server session request = .ok none →
    Handled session request (.error error) (gate.endRequest (keyOf server request))

end

section
variable [DecidableEq Mode] {server : McpServer Mode Inner} {session : McpSession Mode Inner}
  {request : McpRequest Mode}

/-- A cassette that replays nothing is left as it is. -/
theorem McpCassette.replay_none {codec : McpCodec Mode} {cassette cassette' : McpCassette Mode}
    {envelope : McpEnvelope Mode} (h : cassette.replay codec envelope = (.ok none, cassette')) :
    cassette' = cassette := by
  rw [McpCassette.replay] at h
  split at h
  · cases h
  · split at h
    · cases h
      rfl
    · split at h
      · cases h
        rfl
      · obtain ⟨hreplies, -⟩ := Prod.mk.inj h
        obtain ⟨replies, -, hnone⟩ := Except.map_eq_ok_iff.mp hreplies
        cases hnone

theorem replayRequest_apply (server : McpServer Mode Inner) (session : McpSession Mode Inner)
    (request : McpRequest Mode) (method : String) : ∃ cassette?,
    replayRequest server (.request request) method session =
      (replays server session request, { session with cassette := cassette? }) ∧
    (replays server session request = .ok none → cassette? = session.cassette) := by
  cases hsession : session.cassette with
  | none =>
    refine ⟨none, ?_, fun _ => rfl⟩
    simp only [replayRequest, replays, hsession]
    rw [← hsession]
  | some cassette =>
    simp only [replayRequest, replays, hsession]
    obtain ⟨result, cassette', hreplay⟩ : ∃ result cassette',
      cassette.replay server.codec (.request request) = (result, cassette') := ⟨_, _, rfl⟩
    rw [hreplay]
    cases result with
    | error e => exact ⟨_, rfl, fun h => by cases h⟩
    | ok replies =>
      cases replies with
      | some replies => exact ⟨_, rfl, fun h => by cases h⟩
      | none =>
        rw [McpCassette.replay_none hreplay]
        exact ⟨_, rfl, fun _ => rfl⟩

theorem handleRequest_unreplayed {gate : Gate} {e : Error}
    (hpassed : session.gate.admitRequest (keyOf server request) = .ok gate)
    (hreplay : replays server session request = .error e) :
    ∃ cassette?,
      handleRequest server request session = (.error e, ⟨gate, cassette?, session.inner⟩) := by
  have hkey : session.gate.admitRequest (requestKey server.debug request.id) = .ok gate := hpassed
  obtain ⟨cassette?, happly, -⟩ := replayRequest_apply server { session with gate } request
    request.method
  have hadmitted : replays server { session with gate } request = .error e := hreplay
  rw [hadmitted] at happly
  simp only [handleRequest, Effect.bind_apply, Effect.get_apply, hkey, Effect.modify_apply, happly]
  exact ⟨_, rfl⟩

omit [DecidableEq Mode] in
/-- Recording touches the cassette only. -/
theorem recordRequest_apply (server : McpServer Mode Inner) (request : McpRequest Mode)
    (method : String) (replies : List (McpEnvelope Mode))
    (session : McpSession Mode Inner) : ∃ result cassette?,
      recordRequest server (.request request) method replies session =
        (result, { session with cassette := cassette? }) := by
  rw [recordRequest]
  split
  · exact ⟨_, _, rfl⟩
  · split
    · exact ⟨_, _, rfl⟩
    · exact ⟨_, _, rfl⟩

theorem handleRequest_unrecorded {gate : Gate} {e : Error} {session' : McpSession Mode Inner}
    (hpassed : session.gate.admitRequest (keyOf server request) = .ok gate)
    (hreplay : replayRequest server (.request request) request.method { session with gate } =
      (.ok none, { session with gate }))
    (hlive : gate.requestCancelled (keyOf server request) = false)
    (hrecord : recordRequest server (.request request) request.method
      (dispatched server session.gate session.inner request).1
      ⟨gate.endRequest (keyOf server request), session.cassette,
        (dispatched server session.gate session.inner request).2⟩ = (.error e, session')) :
    handleRequest server request session = (.error e, session') := by
  have hkey : session.gate.admitRequest (requestKey server.debug request.id) = .ok gate := hpassed
  have hunmarked : gate.requestCancelled (requestKey server.debug request.id) = false := hlive
  simp only [handleRequest, Effect.bind_apply, Effect.get_apply, hkey, Effect.modify_apply, hreplay,
    hunmarked, Bool.false_eq_true, if_false, endRequest, dispatchRequest]
  rw [dispatched, ← Gate.eq_admitted hpassed] at hrecord
  simp only [keyOf] at hrecord
  rw [hrecord]

theorem handleRequest_handled (server : McpServer Mode Inner) (session : McpSession Mode Inner)
    (request : McpRequest Mode) : Handled server session request
    (handleRequest server request session).1 (handleRequest server request session).2.gate := by
  cases hpassed : session.gate.admitRequest (keyOf server request) with
  | error limit =>
    rw [handleRequest_denied hpassed]
    exact .denied hpassed
  | ok gate =>
    obtain ⟨cassette?, happly, hkept⟩ := replayRequest_apply server { session with gate } request
      request.method
    have hadmitted : replays server { session with gate } request =
        replays server session request := rfl
    rw [hadmitted] at happly hkept
    cases hreplay : replays server session request with
    | error e =>
      obtain ⟨cassette?, hfailed⟩ := handleRequest_unreplayed hpassed hreplay
      rw [hfailed]
      exact .unreplayed hpassed hreplay
    | ok replies =>
      rw [hreplay] at happly hkept
      cases replies with
      | some replies =>
        rw [handleRequest_replayed hpassed happly]
        exact .replayed hpassed hreplay
      | none =>
        rw [hkept rfl] at happly
        cases hcancelled : gate.requestCancelled (keyOf server request) with
        | true =>
          rw [handleRequest_cancelled hpassed happly hcancelled]
          exact .cancelled hpassed hreplay
        | false =>
          obtain ⟨result, cassette?, hrecord⟩ := recordRequest_apply server request
            request.method
            (dispatched server session.gate session.inner request).1
            ⟨gate.endRequest (keyOf server request), session.cassette,
              (dispatched server session.gate session.inner request).2⟩
          cases result with
          | error e =>
            rw [handleRequest_unrecorded hpassed happly hcancelled hrecord]
            exact .unrecorded hpassed hreplay
          | ok =>
            rw [handleRequest_dispatched hpassed happly hcancelled hrecord]
            exact .dispatched hpassed hreplay

end

/-! ## Final replies -/

/-- The request that a final reply answers. -/
def McpEnvelope.finalId : McpEnvelope Mode → Option (Expr Mode)
  | .response reply => some reply.id
  | .error reply => some reply.id
  | .request _ | .notification _ => none

/-- There is one final reply, the last, and it answers the request of the id. -/
def AnswersOnce (id : Expr Mode) (replies : List (McpEnvelope Mode)) : Prop :=
  ∃ (before : List (McpEnvelope Mode)) (final : McpEnvelope Mode), replies = before ++ [final] ∧ (∀ reply ∈ before, reply.finalId = none) ∧
    final.finalId = some id

theorem answersOnce_singleton {id : Expr Mode} {reply : McpEnvelope Mode}
    (h : reply.finalId = some id) : AnswersOnce id [reply] :=
  ⟨[], reply, rfl, List.forall_mem_nil _, h⟩

theorem answersOnce_dispatchReplies {server : McpServer Mode Inner} (id : Expr Mode)
    {result : Except Error (DispatchReply Mode)}
    (h : ∀ reply, result = .ok reply → ∀ reply' ∈ reply.notifications, reply'.finalId = none) :
    AnswersOnce id (dispatchReplies server id result) := by
  cases result with
  | ok reply => exact ⟨reply.notifications, _, rfl, h reply rfl, rfl⟩
  | error error =>
    rw [dispatchReplies]
    split
    · exact answersOnce_singleton rfl
    · rw [errorResponse]
      split
      · exact answersOnce_singleton rfl
      · exact answersOnce_singleton rfl

/-! ## Notifications of a dispatch -/

section
variable (methods : McpMethods Mode Inner Value Item Media)

/-- No notification of a drain is a final reply. -/
def McpStreamDrain.Open (drain : McpStreamDrain Mode Media) : Prop :=
  ∀ reply ∈ drain.notifications, reply.finalId = none

theorem open_pushPacket {drain : McpStreamDrain Mode Media} (h : drain.Open)
    (progressToken : Option (Expr Mode)) (ordinal : Nat) (packet : StreamPacket Mode Media) :
    (pushPacket methods drain progressToken ordinal packet).Open := by
  cases progressToken with
  | none =>
    rw [McpStreamDrain.Open, pushPacket, Option.map_none, Option.toList_none, List.append_nil]
    exact h
  | some token =>
    refine List.forall_mem_append.mpr ⟨h, ?_⟩
    intro reply hreply
    rw [List.mem_singleton.mp hreply]
    rfl

theorem open_drainChunks (next : Effect Error Inner (Option Item))
    (progressToken : Option (Expr Mode)) (index : Nat) {drain : McpStreamDrain Mode Media}
    (h : drain.Open) (chunks : Nat) : Effect.Triple (fun _ => True)
      (drainChunks methods next progressToken index drain chunks) (fun drain _ => drain.Open)
      fun _ => True := by
  induction chunks generalizing index drain with
  | zero => exact fun _ _ => open_pushPacket methods h _ _ _
  | succ chunks ih =>
    have hrest (item : Item) : Effect.Triple (fun _ => True)
        (do
          let packet ← streamValueToPacket methods item
          drainChunks methods next progressToken (index + 1)
            (pushPacket methods drain progressToken (index + 1) packet) chunks)
        (fun drain _ => drain.Open) fun _ => True := by
      refine Effect.Triple.bind (Effect.Triple.const _) fun packet => ?_
      exact ih (index + 1) (open_pushPacket methods h _ _ _)
    intro inner _
    rw [drainChunks]
    cases hnext : next inner with
    | mk result inner' =>
      cases result with
      | error error =>
        simp only [hnext]
        exact open_pushPacket methods h _ _ _
      | ok item =>
        simp only [hnext]
        cases item with
        | none => exact h
        | some item => exact hrest item inner' trivial

theorem open_drainValueStream (value : Value) (progressToken : Option (Expr Mode)) :
    Effect.Triple (fun _ => True) (drainValueStream methods value progressToken)
      (fun drain _ => drain.Open) fun _ => True := by
  have hnew : ({} : McpStreamDrain Mode Media).Open := List.forall_mem_nil _
  rw [drainValueStream]
  split
  · exact Effect.Triple.pure fun _ _ => hnew
  · exact open_drainChunks methods _ progressToken 0 hnew maxProgressChunks

/-- What is dispatched gives no final reply on the way. -/
theorem dispatchRequest_open (gate : Gate) (method : String) (params : Expr Mode) :
    Effect.Triple (fun _ => True) (methods.server.dispatchRequest gate method params)
      (fun reply _ => ∀ reply' ∈ reply.notifications, reply'.finalId = none) fun _ => True := by
  show Effect.Triple _ (if method = "tools/call" then _ else _) _ _
  split
  · refine Effect.Triple.bind (Effect.Triple.const _) fun called => ?_
    cases called with
    | error error => exact Effect.Triple.pure fun _ _ => List.forall_mem_nil _
    | ok value =>
      refine Effect.Triple.bind (open_drainValueStream methods value _) fun drain => ?_
      refine Effect.Triple.bind (Effect.Triple.const _) fun _ => ?_
      refine Effect.Triple.bind (Effect.Triple.const _) fun result => ?_
      exact Effect.Triple.pure fun _ hopen => hopen
  · refine Effect.Triple.bind (Effect.Triple.const _) fun result => ?_
    exact Effect.Triple.pure fun _ _ => List.forall_mem_nil _

theorem answersOnce_dispatched (gate : Gate) (inner : Inner) (request : McpRequest Mode) :
    AnswersOnce request.id (dispatched methods.server gate inner request).1 := by
  rw [dispatched]
  apply answersOnce_dispatchReplies
  intro reply hreply
  exact (dispatchRequest_open methods _ _ _).ok trivial (Prod.ext hreply rfl)

/-! ## Every envelope -/

variable [DecidableEq Mode]

/-- The exchange that is replayed to a request: the request is admitted, and the next request that
is recorded is this one with its secrets taken out. -/
def replayedExchange (session : McpSession Mode Inner) (request : McpRequest Mode) :
    Option (McpCassetteEntry Mode) :=
  match session.gate.admitRequest (requestKey methods.debug request.id), session.cassette,
    canonicalEnvelope methods.codec (.request request) with
  | .ok _, some cassette, .ok expr =>
    match cassette.entries[cassette.replayIndex]? with
    | some entry => if entry.request = expr then some entry else none
    | none => none
  | _, _, _ => none

/-- The recorded replies, if they can be read, are one final reply to the request after replies
that are not final. -/
def RecordedOnce (exchange : McpCassetteEntry Mode) (id : Expr Mode) : Prop :=
  ∀ replies, exchange.replies.mapM methods.codec.exprToEnvelope = .ok replies →
    AnswersOnce id replies

/-- A request gets one final reply under its id, any other envelope gets none. -/
def Answered : McpEnvelope Mode → List (McpEnvelope Mode) → Prop
  | .request request, replies => AnswersOnce request.id replies
  | .notification _, replies | .response _, replies | .error _, replies => replies = []

theorem replays_iff {session : McpSession Mode Inner} {request : McpRequest Mode} {gate : Gate}
    (hpassed : session.gate.admitRequest (keyOf methods.server request) = .ok gate) :
    replays methods.server session request = .ok (some replies) ↔
      ∃ exchange, replayedExchange methods session request = some exchange ∧
        exchange.replies.mapM methods.codec.exprToEnvelope = .ok replies := by
  have hkey : session.gate.admitRequest (requestKey methods.debug request.id) = .ok gate := hpassed
  have hcodec : methods.server.codec = methods.codec := rfl
  cases hsession : session.cassette with
  | none => simp [replays, replayedExchange, hsession, hkey]
  | some cassette =>
    cases hexpr : canonicalEnvelope methods.codec (.request request) with
    | error e => simp [replays, replayedExchange, McpCassette.replay, hsession, hkey, hcodec, hexpr]
    | ok expr =>
      cases hentry : cassette.entries[cassette.replayIndex]? with
      | none =>
        simp [replays, replayedExchange, McpCassette.replay, hsession, hkey, hcodec, hexpr, hentry]
      | some entry =>
        simp only [replays, replayedExchange, McpCassette.replay, hsession, hkey, hcodec, hexpr,
          hentry, ne_eq]
        by_cases hsame : entry.request = expr
        · simp only [hsame, if_true, not_true_eq_false, if_false, Option.some.injEq,
            exists_eq_left']
          show (some <$> _ : Except Error _) = _ ↔ _
          rw [Except.map_eq_ok_iff]
          simp
        · simp [hsame]

theorem admitted_of_replayedExchange {session : McpSession Mode Inner} {request : McpRequest Mode}
    {exchange : McpCassetteEntry Mode} (h : replayedExchange methods session request = some exchange) :
    ∃ gate, session.gate.admitRequest (keyOf methods.server request) = .ok gate := by
  rw [replayedExchange] at h
  split at h
  · rename_i gate _ _ hpassed _ _
    exact ⟨gate, hpassed⟩
  · cases h

theorem handleMany_request {session : McpSession Mode Inner} {request : McpRequest Mode}
    {replies : List (McpEnvelope Mode)} :
    (handleMany methods (.request request) session).1 = .ok replies ↔
      ∃ answer, (handleRequest methods.server request session).1 = .ok answer ∧
        answer.replies = replies := by
  rw [handleMany, Effect.bind_apply]
  obtain ⟨result, session', hresult⟩ : ∃ result session',
    handleRequest methods.server request session = (result, session') := ⟨_, _, rfl⟩
  rw [hresult]
  cases result with
  | ok answer => simp
  | error e => simp

/-- Every request gets one final reply under its own id, except where it is replayed and the
recorded replies are not such. -/
theorem answered_iff (session : McpSession Mode Inner) (envelope : McpEnvelope Mode) :
    (∀ replies, (handleMany methods envelope session).1 = .ok replies →
      Answered envelope replies) ↔
      ∀ request exchange, envelope = .request request →
        replayedExchange methods session request = some exchange →
        RecordedOnce methods exchange request.id := by
  cases envelope with
  | request request =>
    constructor
    · intro h request' exchange hrequest hexchange replies hreplies
      cases hrequest
      have hhandled := handleRequest_handled methods.server session request
      obtain ⟨gate, hpassed⟩ := admitted_of_replayedExchange methods hexchange
      have hreplay := (replays_iff methods hpassed).mpr ⟨exchange, hexchange, hreplies⟩
      apply h replies
      rw [handleMany_request]
      generalize (handleRequest methods.server request session).1 = result at hhandled ⊢
      generalize (handleRequest methods.server request session).2.gate = gate' at hhandled
      cases hhandled with
      | denied hdenied => cases hpassed.symm.trans hdenied
      | unreplayed _ hfailed => cases hreplay.symm.trans hfailed
      | replayed _ hreplayed =>
        cases hreplay.symm.trans hreplayed
        exact ⟨_, rfl, rfl⟩
      | cancelled _ hnone => cases hreplay.symm.trans hnone
      | dispatched _ hnone => cases hreplay.symm.trans hnone
      | unrecorded _ hnone => cases hreplay.symm.trans hnone
    · intro h replies hreplies
      obtain ⟨answer, hanswer, rfl⟩ := (handleMany_request methods).mp hreplies
      have hhandled := handleRequest_handled methods.server session request
      rw [hanswer] at hhandled
      generalize (handleRequest methods.server request session).2.gate = gate' at hhandled
      cases hhandled with
      | @denied limit hdenied =>
        cases limit with
        | deadline | rate | activeRequests => exact answersOnce_singleton rfl
      | replayed hpassed hreplay =>
        obtain ⟨exchange, hexchange, hrecorded⟩ := (replays_iff methods hpassed).mp hreplay
        exact h request exchange rfl hexchange _ hrecorded
      | cancelled => exact answersOnce_singleton rfl
      | dispatched => exact answersOnce_dispatched methods _ _ _
  | notification | response | error =>
    refine iff_of_true (fun replies h => ?_) nofun
    exact (Except.ok.inj h).symm

end

namespace ReplySample

/-- A server of tools that do not stream. -/
def methods : McpMethods Unit Unit Unit Unit Unit where
  codec := Sample.codec
  debug _ := ""
  notFoundErrorData _ := none
  unknownFunction method := "unknown function " ++ method
  fieldAny _ _ := none
  packetOfExpr _ := .error ⟨.wrongShape, "not a packet"⟩
  packetToExpr _ := .nil
  next _ := none
  asExpr _ := pure .nil
  recordStreamPackets _ inner := inner
  coreInitialize _ := pure (.map [])
  coreInitialized inner := inner
  coreShutdown inner := inner
  resourcesList := pure (.list [])
  resourcesRead _ _ := pure .nil
  promptsList := pure (.list [])
  promptsGet _ _ := pure .nil
  toolsList := pure (.list [])
  callTool _ _ := pure (.ok ())
  toolSuccess _ := pure .nil
  toolError text := .string text

/-- A session that has recorded a ping. -/
def recorded (id : String) : McpSession Unit Unit :=
  (handleMany methods (.request (Sample.ping id))
    ⟨Sample.session.gate, some .new, ()⟩).2

def finalIds (result : Except Error (List (McpEnvelope Unit))) :
    Option (List (Option (Expr Unit))) :=
  result.toOption.map fun replies => replies.map McpEnvelope.finalId

end ReplySample

/-- A recorded ping whose id looks secret is answered under another id when it is sent again. -/
theorem secret_ping_misanswered : ∃ replies,
    (handleMany ReplySample.methods (.request (Sample.ping "secret-1"))
      (ReplySample.recorded "secret-1")).1 = .ok replies ∧
    ¬Answered (.request (Sample.ping "secret-1")) replies := by
  have hids : ReplySample.finalIds (handleMany ReplySample.methods
      (.request (Sample.ping "secret-1")) (ReplySample.recorded "secret-1")).1 =
        some [some (.string "[redacted]")] := by decide +kernel
  obtain ⟨replies, hreplies, hfinal⟩ := Option.map_eq_some_iff.mp hids
  refine ⟨replies, Except.toOption_eq_some_iff.mp hreplies, ?_⟩
  rintro ⟨before, final, rfl, -, hid⟩
  rw [List.map_append, List.map_singleton, hid] at hfinal
  have hlast := congrArg List.getLast? hfinal
  simp [Sample.ping] at hlast

end SimAgentNet.Mcp
