import SimAgentNet.Mcp.Router

/-! # One request

What a request does to a session with a cassette and to one without. -/

namespace SimAgentNet.Mcp
variable {Mode Inner : Type}

/-- An envelope is read from its expression, and what is left after redaction is an envelope. -/
structure McpCodec.Lawful (codec : McpCodec Mode) : Prop where
  decode : ∀ envelope, codec.exprToEnvelope (codec.envelopeToExpr envelope) = .ok envelope
  redacted : ∀ envelope, ∃ envelope',
    codec.exprToEnvelope (redactExpr (codec.envelopeToExpr envelope) false) = .ok envelope'

/-! ## Admission -/

/-- How a gate takes a request. -/
inductive Admission where
  | denied (limit : McpBoundaryLimit)
  | cancelled
  | live
deriving DecidableEq

namespace Gate

/-- The gate while a request is active. -/
def admitted (gate : Gate) (key : String) : Gate :=
  { gate with
    requestsSeen := gate.requestsSeen + 1, activeRequests := gate.activeRequests.insert key }

def admission (gate : Gate) (key : String) : Admission :=
  match gate.admitRequest key with
  | .error limit => .denied limit
  | .ok _ => if gate.requestCancelled key then .cancelled else .live

/-- The gate after a request has been handled. -/
def after (gate : Gate) (key : String) : Gate :=
  match gate.admitRequest key with
  | .error _ => gate
  | .ok gate => gate.endRequest key

variable {gate gate' : Gate} {key key' : String}

theorem eq_admitted (h : gate.admitRequest key = .ok gate') : gate' = gate.admitted key := by
  simp only [admitRequest] at h
  split at h
  · cases h
  · split at h
    · cases h
    · split at h
      · cases h
      · exact (Except.ok.inj h).symm

/-- The marks of cancelled requests are only taken away. -/
theorem cancelledRequests_after (h : key ∉ gate.cancelledRequests) :
    key ∉ (gate.after key').cancelledRequests := by
  cases hpassed : gate.admitRequest key' with
  | error limit => rwa [after, hpassed]
  | ok gate' =>
    rw [after, hpassed, eq_admitted hpassed]
    exact fun hmem => h (SortedSet.mem_erase.mp hmem).1

theorem not_cancelled_of_live (h : gate.admission key = .live) : key ∉ gate.cancelledRequests := by
  rw [admission] at h
  split at h
  · cases h
  · split at h
    · cases h
    · rename_i hcancelled
      simpa [requestCancelled] using hcancelled

theorem cancelled_of_cancelled (h : gate.admission key = .cancelled) :
    key ∈ gate.cancelledRequests := by
  rw [admission] at h
  split at h
  · cases h
  · split at h
    · rename_i hcancelled
      simpa [requestCancelled] using hcancelled
    · cases h

end Gate

section
variable (server : McpServer Mode Inner)

def keyOf (request : McpRequest Mode) : String := requestKey server.debug request.id

def encode (request : McpRequest Mode) : Expr Mode := server.codec.envelopeToExpr (.request request)

/-- The replies of the methods to a request, and what they leave. -/
def dispatched (gate : Gate) (inner : Inner) (request : McpRequest Mode) :
    List (McpEnvelope Mode) × Inner :=
  let (result, inner) := server.dispatchRequest (gate.admitted (keyOf server request))
    request.method request.params inner
  (dispatchReplies server request.id result, inner)

def deniedAnswer (request : McpRequest Mode) (limit : McpBoundaryLimit) : Answer Mode :=
  ⟨.denied, [boundaryLimitError server request.id limit]⟩

def cancelledAnswer (request : McpRequest Mode) : Answer Mode :=
  ⟨.cancelled, [cancelledError server request.id "request cancelled"]⟩

/-- The replies to a request when nothing is recorded or replayed. -/
def uncached (gate : Gate) (inner : Inner) (request : McpRequest Mode) : Answer Mode × Inner :=
  match gate.admission (keyOf server request) with
  | .denied limit => (deniedAnswer server request limit, inner)
  | .cancelled => (cancelledAnswer server request, inner)
  | .live => (⟨.dispatched, (dispatched server gate inner request).1⟩,
      (dispatched server gate inner request).2)

end

/-- What a cassette replays: its exchanges, and the next one. -/
structure Tape (Mode : Type) where
  entries : List (McpCassetteEntry Mode)
  next : Nat

namespace Tape

def head? (tape : Tape Mode) : Option (McpCassetteEntry Mode) := tape.entries[tape.next]?

/-- The replies of every exchange can be read back. -/
def Readable (codec : McpCodec Mode) (tape : Tape Mode) : Prop :=
  ∀ entry ∈ tape.entries, ∃ replies, entry.replies.mapM codec.exprToEnvelope = .ok replies

end Tape

def McpCassette.tape (cassette : McpCassette Mode) : Tape Mode :=
  ⟨cassette.entries, cassette.replayIndex⟩

@[simp] theorem McpCassette.recordAudit_tape (cassette : McpCassette Mode)
    (method operation outcome : String) :
    (cassette.recordAudit method operation outcome).tape = cassette.tape := rfl

/-- What handling a request does with a tape. -/
inductive Step (server : McpServer Mode Inner) (gate : Gate) (inner : Inner) (tape : Tape Mode)
    (request : McpRequest Mode) : Answer Mode → Tape Mode → Inner → Prop
  | denied : gate.admission (keyOf server request) = .denied limit →
    Step server gate inner tape request (deniedAnswer server request limit) tape inner
  | cancelled : gate.admission (keyOf server request) = .cancelled →
    (∀ entry, tape.head? = some entry → entry.request ≠ encode server request) →
    Step server gate inner tape request (cancelledAnswer server request) tape inner
  | replayed : (∀ limit, gate.admission (keyOf server request) ≠ .denied limit) →
    tape.head? = some entry → entry.request = encode server request →
    entry.replies.mapM server.codec.exprToEnvelope = .ok replies →
    Step server gate inner tape request ⟨.replayed, replies⟩ ⟨tape.entries, tape.next + 1⟩ inner
  | dispatched : gate.admission (keyOf server request) = .live →
    (∀ entry, tape.head? = some entry → entry.request ≠ encode server request) →
    List.mapM server.codec.exprToEnvelope exprs = .ok replies →
    Step server gate inner tape request ⟨.dispatched, (dispatched server gate inner request).1⟩
      ⟨tape.entries ++ [⟨encode server request, exprs⟩], tape.next⟩
      (dispatched server gate inner request).2

section
variable {server : McpServer Mode Inner} {session : McpSession Mode Inner}
  {request : McpRequest Mode} {cassette : McpCassette Mode}

theorem canonicalEnvelope_request (hcodec : server.codec.Lawful)
    (hplain : secretFree (encode server request) = true) :
    canonicalEnvelope server.codec (.request request) = .ok (encode server request) := by
  show (server.codec.exprToEnvelope (redactExpr (encode server request) false) >>= fun envelope =>
    pure (server.codec.envelopeToExpr envelope)) = _
  rw [redactExpr_of_secretFree _ hplain, encode, hcodec.decode]
  rfl

/-- The replies that are recorded can be read back. -/
theorem exists_recorded (hcodec : server.codec.Lawful) (replies : List (McpEnvelope Mode)) :
    ∃ exprs envelopes, replies.mapM (canonicalEnvelope server.codec) = .ok exprs ∧
      exprs.mapM server.codec.exprToEnvelope = .ok envelopes := by
  induction replies with
  | nil => exact ⟨[], [], rfl, rfl⟩
  | cons reply replies ih =>
    obtain ⟨exprs, envelopes, hexprs, henvelopes⟩ := ih
    obtain ⟨reply', hreply⟩ := hcodec.redacted reply
    have hcanonical : canonicalEnvelope server.codec reply =
        .ok (server.codec.envelopeToExpr reply') := by
      rw [canonicalEnvelope, hreply]
      rfl
    refine ⟨server.codec.envelopeToExpr reply' :: exprs, reply' :: envelopes, ?_, ?_⟩
    · rw [List.mapM_cons, hcanonical, hexprs]
      rfl
    · rw [List.mapM_cons, hcodec.decode, henvelopes]
      rfl

theorem recordRequest_ok (hcodec : server.codec.Lawful)
    (hplain : secretFree (encode server request) = true) (hsession : session.cassette = some cassette)
    (replies : List (McpEnvelope Mode)) :
    ∃ (cassette' : McpCassette Mode) (exprs : List (Expr Mode)) (envelopes : List (McpEnvelope Mode)),
      recordRequest server (.request request) request.method replies session =
        (.ok (), { session with cassette := some cassette' }) ∧
      cassette'.tape = ⟨cassette.entries ++ [⟨encode server request, exprs⟩], cassette.replayIndex⟩ ∧
      exprs.mapM server.codec.exprToEnvelope = .ok envelopes := by
  obtain ⟨exprs, envelopes, hexprs, henvelopes⟩ := exists_recorded hcodec replies
  have hrecord : cassette.recordExchange server.codec (.request request) replies =
      .ok { cassette with entries := cassette.entries ++ [⟨encode server request, exprs⟩] } := by
    rw [McpCassette.recordExchange, canonicalEnvelope_request hcodec hplain, hexprs]
    rfl
  simp only [recordRequest, hsession, hrecord]
  cases auditableOperation request.method with
  | none => exact ⟨_, exprs, envelopes, rfl, rfl, henvelopes⟩
  | some operation => exact ⟨_, exprs, envelopes, rfl, rfl, henvelopes⟩

variable [DecidableEq Mode]

theorem replayRequest_hit {entry : McpCassetteEntry Mode} (hcodec : server.codec.Lawful)
    (hplain : secretFree (encode server request) = true) (hsession : session.cassette = some cassette)
    (hentry : cassette.tape.head? = some entry) (hrequest : entry.request = encode server request)
    (hreplies : entry.replies.mapM server.codec.exprToEnvelope = .ok replies) :
    ∃ cassette' : McpCassette Mode,
      replayRequest server (.request request) request.method session =
        (.ok (some replies), { session with cassette := some cassette' }) ∧
      cassette'.tape = ⟨cassette.entries, cassette.replayIndex + 1⟩ := by
  have hreplay : cassette.replay server.codec (.request request) = (.ok (some replies),
      { cassette with replayIndex := cassette.replayIndex + 1 }) := by
    have hentry' : cassette.entries[cassette.replayIndex]? = some entry := hentry
    simp only [McpCassette.replay, canonicalEnvelope_request hcodec hplain, hentry', hrequest,
      hreplies]
    simp [Except.map]
  simp only [replayRequest, hsession, hreplay]
  cases auditableOperation request.method with
  | none => exact ⟨_, rfl, rfl⟩
  | some operation => exact ⟨_, rfl, rfl⟩

theorem replayRequest_miss (hcodec : server.codec.Lawful)
    (hplain : secretFree (encode server request) = true) (hsession : session.cassette = some cassette)
    (hmiss : ∀ entry, cassette.tape.head? = some entry → entry.request ≠ encode server request) :
    replayRequest server (.request request) request.method session = (.ok none, session) := by
  have hreplay : cassette.replay server.codec (.request request) = (.ok none, cassette) := by
    simp only [McpCassette.replay, canonicalEnvelope_request hcodec hplain]
    split
    · rfl
    · rename_i entry hentry
      rw [if_pos (hmiss entry hentry)]
  simp only [replayRequest, hsession, hreplay]
  rw [← hsession]

theorem admission_eq_denied {gate : Gate} {key : String} {limit : McpBoundaryLimit}
    (h : gate.admitRequest key = .error limit) : gate.admission key = .denied limit := by
  rw [Gate.admission, h]

theorem handleRequest_denied {limit : McpBoundaryLimit}
    (h : session.gate.admitRequest (keyOf server request) = .error limit) :
    handleRequest server request session = (.ok (deniedAnswer server request limit),
      { session with
        cassette := session.cassette.map
          (·.recordAudit request.method "boundary" limit.auditOutcome) }) := by
  have hkey : session.gate.admitRequest (requestKey server.debug request.id) = .error limit := h
  simp only [handleRequest, Effect.bind_apply, Effect.get_apply, hkey]
  rfl

section
variable {gate' : Gate} {cassette? : Option (McpCassette Mode)}
  (hpassed : session.gate.admitRequest (keyOf server request) = .ok gate')
include hpassed

theorem handleRequest_replayed {replies : List (McpEnvelope Mode)}
    (hreplay : replayRequest server (.request request) request.method { session with gate := gate' } =
      (.ok (some replies), ⟨gate', cassette?, session.inner⟩)) :
    handleRequest server request session =
      (.ok ⟨.replayed, replies⟩,
        ⟨gate'.endRequest (keyOf server request), cassette?, session.inner⟩) := by
  have hkey : session.gate.admitRequest (requestKey server.debug request.id) = .ok gate' := hpassed
  simp only [handleRequest, Effect.bind_apply, Effect.get_apply, hkey, Effect.modify_apply, hreplay,
    endRequest]
  rfl

variable
  (hreplay : replayRequest server (.request request) request.method { session with gate := gate' } =
    (.ok none, { session with gate := gate' }))
include hreplay

theorem handleRequest_cancelled (hcancelled : gate'.requestCancelled (keyOf server request) = true) :
    handleRequest server request session =
      (.ok (cancelledAnswer server request),
        { session with gate := gate'.endRequest (keyOf server request) }) := by
  have hkey : session.gate.admitRequest (requestKey server.debug request.id) = .ok gate' := hpassed
  have hmarked : gate'.requestCancelled (requestKey server.debug request.id) = true := hcancelled
  simp only [handleRequest, Effect.bind_apply, Effect.get_apply, hkey, Effect.modify_apply, hreplay,
    hmarked, if_true, endRequest]
  rfl

theorem handleRequest_dispatched (hlive : gate'.requestCancelled (keyOf server request) = false)
    (hrecord : recordRequest server (.request request) request.method
      (dispatched server session.gate session.inner request).1
      ⟨gate'.endRequest (keyOf server request), session.cassette,
        (dispatched server session.gate session.inner request).2⟩ =
      (.ok (), ⟨gate'.endRequest (keyOf server request), cassette?,
        (dispatched server session.gate session.inner request).2⟩)) :
    handleRequest server request session =
      (.ok ⟨.dispatched, (dispatched server session.gate session.inner request).1⟩,
        ⟨gate'.endRequest (keyOf server request), cassette?,
          (dispatched server session.gate session.inner request).2⟩) := by
  have hkey : session.gate.admitRequest (requestKey server.debug request.id) = .ok gate' := hpassed
  have hunmarked : gate'.requestCancelled (requestKey server.debug request.id) = false := hlive
  simp only [handleRequest, Effect.bind_apply, Effect.get_apply, hkey, Effect.modify_apply, hreplay,
    hunmarked, Bool.false_eq_true, if_false, endRequest, dispatchRequest]
  rw [dispatched, ← Gate.eq_admitted hpassed] at hrecord ⊢
  simp only [keyOf] at hrecord ⊢
  rw [hrecord]
  rfl

end

theorem admission_eq_cancelled {gate gate' : Gate} {key : String}
    (h : gate.admitRequest key = .ok gate') (hcancelled : gate'.requestCancelled key = true) :
    gate.admission key = .cancelled := by
  rw [Gate.eq_admitted h] at hcancelled
  rw [Gate.admission, h]
  exact if_pos hcancelled

theorem admission_eq_live {gate gate' : Gate} {key : String}
    (h : gate.admitRequest key = .ok gate') (hlive : gate'.requestCancelled key = false) :
    gate.admission key = .live := by
  rw [Gate.eq_admitted h] at hlive
  rw [Gate.admission, h]
  refine if_neg fun hcancelled => ?_
  exact Bool.false_ne_true (hlive.symm.trans hcancelled)

theorem admission_ne_denied {gate gate' : Gate} {key : String}
    (h : gate.admitRequest key = .ok gate') (limit : McpBoundaryLimit) :
    gate.admission key ≠ .denied limit := by
  cases hcancelled : gate'.requestCancelled key with
  | true =>
    rw [admission_eq_cancelled h hcancelled]
    exact nofun
  | false =>
    rw [admission_eq_live h hcancelled]
    exact nofun

/-- What a request does to a session with a cassette. -/
theorem handleRequest_step (hcodec : server.codec.Lawful)
    (hplain : secretFree (encode server request) = true) (hsession : session.cassette = some cassette)
    (hreadable : cassette.tape.Readable server.codec) :
    ∃ (answer : Answer Mode) (cassette' : McpCassette Mode) (inner' : Inner),
      handleRequest server request session =
        (.ok answer, ⟨session.gate.after (keyOf server request), some cassette', inner'⟩) ∧
      Step server session.gate session.inner cassette.tape request answer cassette'.tape inner' := by
  cases hpassed : session.gate.admitRequest (keyOf server request) with
  | error limit =>
    refine ⟨deniedAnswer server request limit,
      cassette.recordAudit request.method "boundary" limit.auditOutcome, session.inner, ?_,
      .denied (admission_eq_denied hpassed)⟩
    rw [handleRequest_denied hpassed, hsession, Gate.after, hpassed]
    rfl
  | ok gate' =>
    have hafter : session.gate.after (keyOf server request) =
        gate'.endRequest (keyOf server request) := by rw [Gate.after, hpassed]
    have hadmitted : ({ session with gate := gate' } : McpSession Mode Inner).cassette =
        some cassette := hsession
    by_cases hhit : ∃ entry, cassette.tape.head? = some entry ∧ entry.request = encode server request
    · obtain ⟨entry, hentry, hrequest⟩ := hhit
      obtain ⟨replies, hreplies⟩ := hreadable entry (List.mem_of_getElem? hentry)
      obtain ⟨cassette', hreplay, htape⟩ :=
        replayRequest_hit hcodec hplain hadmitted hentry hrequest hreplies
      refine ⟨⟨.replayed, replies⟩, cassette', session.inner, ?_, ?_⟩
      · rw [hafter, handleRequest_replayed hpassed hreplay]
      · rw [htape]
        exact .replayed (admission_ne_denied hpassed) hentry hrequest hreplies
    · have hmiss : ∀ entry, cassette.tape.head? = some entry →
          entry.request ≠ encode server request :=
        fun entry hentry hrequest => hhit ⟨entry, hentry, hrequest⟩
      have hreplay := replayRequest_miss hcodec hplain hadmitted hmiss
      cases hcancelled : gate'.requestCancelled (keyOf server request) with
      | true =>
        refine ⟨_, cassette, session.inner, ?_,
          .cancelled (admission_eq_cancelled hpassed hcancelled) hmiss⟩
        rw [hafter, handleRequest_cancelled hpassed hreplay hcancelled, hsession]
      | false =>
        have hended : (⟨gate'.endRequest (keyOf server request), session.cassette,
            (dispatched server session.gate session.inner request).2⟩ :
              McpSession Mode Inner).cassette = some cassette := hsession
        obtain ⟨cassette', exprs, envelopes, hrecord, htape, henvelopes⟩ :=
          recordRequest_ok hcodec hplain hended
            (dispatched server session.gate session.inner request).1
        refine ⟨⟨.dispatched, (dispatched server session.gate session.inner request).1⟩, cassette',
          (dispatched server session.gate session.inner request).2, ?_, ?_⟩
        · rw [hafter, handleRequest_dispatched hpassed hreplay hcancelled hrecord]
        · rw [htape]
          exact .dispatched (admission_eq_live hpassed hcancelled) hmiss henvelopes

/-- Without a cassette nothing is replayed and nothing is kept. -/
theorem handleRequest_uncached (hsession : session.cassette = none) :
    handleRequest server request session =
      (.ok (uncached server session.gate session.inner request).1,
        ⟨session.gate.after (keyOf server request), none,
          (uncached server session.gate session.inner request).2⟩) := by
  cases hpassed : session.gate.admitRequest (keyOf server request) with
  | error limit =>
    rw [handleRequest_denied hpassed, hsession, Gate.after, hpassed, uncached,
      admission_eq_denied hpassed]
    rfl
  | ok gate' =>
    have hafter : session.gate.after (keyOf server request) =
        gate'.endRequest (keyOf server request) := by rw [Gate.after, hpassed]
    have hreplay : replayRequest server (.request request) request.method
        { session with gate := gate' } = (.ok none, { session with gate := gate' }) := by
      simp only [replayRequest, hsession]
    cases hcancelled : gate'.requestCancelled (keyOf server request) with
    | true =>
      rw [handleRequest_cancelled hpassed hreplay hcancelled, hafter, uncached,
        admission_eq_cancelled hpassed hcancelled, hsession]
    | false =>
      have hrecord : recordRequest server (.request request) request.method
          (dispatched server session.gate session.inner request).1
          ⟨gate'.endRequest (keyOf server request), session.cassette,
            (dispatched server session.gate session.inner request).2⟩ =
          (.ok (), ⟨gate'.endRequest (keyOf server request), none,
            (dispatched server session.gate session.inner request).2⟩) := by
        simp only [recordRequest, hsession]
      rw [handleRequest_dispatched hpassed hreplay hcancelled hrecord, hafter, uncached,
        admission_eq_live hpassed hcancelled]

end

end SimAgentNet.Mcp
