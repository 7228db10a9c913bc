import SimAgentNet.Data.Refusal
import SimAgentNet.Mcp.Replies

/-! # The accounting of a session

A request is active from its admission to its end. It is not ended where its replay fails. Requests
are told apart by their keys, and ids of different kinds may share a key. -/

namespace SimAgentNet.Mcp
variable {Mode Inner Value Item Media : Type}

namespace Gate

/-- No request is active or marked as cancelled. -/
structure Idle (gate : Gate) : Prop where
  active : gate.activeRequests = ∅
  cancelled : gate.cancelledRequests = ∅

structure Fresh (gate : Gate) : Prop extends Idle gate where
  seen : gate.requestsSeen = 0

variable {gate gate' : Gate} {key key' : String}

theorem idle_endRequest (h : gate.Idle) (key : String) :
    ((gate.admitted key).endRequest key).Idle where
  active := by
    apply SortedSet.ext
    intro active
    rw [endRequest, admitted, h.active, SortedSet.mem_erase, SortedSet.mem_insert]
    constructor
    · rintro ⟨rfl | hmem, hne⟩
      · exact absurd rfl hne
      · exact hmem
    · intro hmem
      exact absurd hmem (SortedSet.not_mem_empty _)
  cancelled := by
    apply SortedSet.ext
    intro cancelled
    rw [endRequest, admitted, h.cancelled, SortedSet.mem_erase]
    constructor
    · exact fun hmem => hmem.1
    · exact fun hmem => absurd hmem (SortedSet.not_mem_empty _)

theorem not_idle_admitted (gate : Gate) (key : String) : ¬(gate.admitted key).Idle := by
  intro h
  have hmem : key ∈ (gate.admitted key).activeRequests := SortedSet.mem_insert.mpr (.inl rfl)
  rw [h.active] at hmem
  exact SortedSet.not_mem_empty _ hmem

theorem seen_lt_of_admitted (h : gate.admitRequest key = .ok gate') {limit : Nat}
    (hlimit : gate.rateLimit = some limit) : gate.requestsSeen < limit := by
  simp only [admitRequest, hlimit] at h
  split at h
  · cases h
  · split at h
    · cases h
    · split at h
      · cases h
      · rename_i hrate
        simpa using hrate

end Gate

/-! ## Keys -/

/-- Beginning, cancelling or ending the first request leaves the second as it is. -/
structure KeptApart (debug : Expr Mode → String) (id id' : Expr Mode) : Prop where
  active : ∀ (gate : Gate), ∀ f ∈ [Gate.beginRequest, Gate.markRequestCancelled, Gate.endRequest],
    (f gate (requestKey debug id)).requestIsActive (requestKey debug id') =
      gate.requestIsActive (requestKey debug id')
  cancelled : ∀ (gate : Gate),
    ∀ f ∈ [Gate.beginRequest, Gate.markRequestCancelled, Gate.endRequest],
    (f gate (requestKey debug id)).requestCancelled (requestKey debug id') =
      gate.requestCancelled (requestKey debug id')

theorem keptApart_iff {debug : Expr Mode → String} {id id' : Expr Mode} :
    KeptApart debug id id' ↔ requestKey debug id ≠ requestKey debug id' := by
  constructor
  · intro h hkey
    have hactive := h.active ⟨none, none, none, 0, ∅, ∅⟩ Gate.beginRequest List.mem_cons_self
    simp [hkey, Gate.beginRequest, Gate.requestIsActive] at hactive
  · intro hkey
    constructor
    · intro gate f hf
      simp only [List.mem_cons, List.not_mem_nil, or_false] at hf
      obtain rfl | rfl | rfl := hf
      · simp [Gate.beginRequest, Gate.requestIsActive, hkey.symm]
      · rfl
      · simp [Gate.endRequest, Gate.requestIsActive, hkey.symm]
    · intro gate f hf
      simp only [List.mem_cons, List.not_mem_nil, or_false] at hf
      obtain rfl | rfl | rfl := hf
      · rfl
      · simp [Gate.markRequestCancelled, Gate.requestCancelled, hkey.symm]
      · simp [Gate.endRequest, Gate.requestCancelled, hkey.symm]

/-! ## Steps -/

section
variable (methods : McpMethods Mode Inner Value Item Media)

/-- How the replay of a request fails: it cannot be written without its secrets, or a reply that is
recorded for it cannot be read. -/
inductive ReplayFails (session : McpSession Mode Inner) (request : McpRequest Mode) : Prop
  | unwritten : session.cassette = some cassette →
    canonicalEnvelope methods.codec (.request request) = .error e → ReplayFails session request
  | unread : session.cassette = some cassette →
    canonicalEnvelope methods.codec (.request request) = .ok expr →
    cassette.entries[cassette.replayIndex]? = some entry → entry.request = expr →
    reply ∈ entry.replies → methods.codec.exprToEnvelope reply = .error e →
    ReplayFails session request

def admits (session : McpSession Mode Inner) : McpEnvelope Mode → Bool
  | .request request => (session.gate.admitRequest (requestKey methods.debug request.id)).isOk
  | .notification _ | .response _ | .error _ => false

/-- What an envelope does to the gate. -/
inductive GateStep (session : McpSession Mode Inner) : McpEnvelope Mode → Gate → Prop
  | kept : admits methods session envelope = false → GateStep session envelope session.gate
  | marked : session.gate.requestIsActive key = true →
    GateStep session (.notification notification) (session.gate.markRequestCancelled key)
  | lost : session.gate.admitRequest (keyOf methods.server request) = .ok gate →
    ReplayFails methods session request → GateStep session (.request request) gate
  | ended : session.gate.admitRequest (keyOf methods.server request) = .ok gate →
    ¬ReplayFails methods session request →
    GateStep session (.request request) (gate.endRequest (keyOf methods.server request))

/-- The request is admitted and its replay fails. -/
def Loses (session : McpSession Mode Inner) : McpEnvelope Mode → Prop
  | .request request => admits methods session (.request request) = true ∧
    ReplayFails methods session request
  | .notification _ | .response _ | .error _ => False

variable {methods} {session : McpSession Mode Inner} {envelope : McpEnvelope Mode} {gate : Gate}

theorem admits_of_passed {request : McpRequest Mode}
    (h : session.gate.admitRequest (keyOf methods.server request) = .ok gate) :
    admits methods session (.request request) = true := by
  rw [admits, show session.gate.admitRequest (requestKey methods.debug request.id) = _ from h]
  rfl

/-- An idle gate is idle after an envelope unless a request is lost. -/
theorem GateStep.idle_iff (H : GateStep methods session envelope gate) (h : session.gate.Idle) :
    gate.Idle ↔ ¬Loses methods session envelope := by
  cases H with
  | kept hkept =>
    refine iff_of_true h fun hloses => ?_
    cases envelope with
    | request request => exact Bool.false_ne_true (hkept.symm.trans hloses.1)
    | notification | response | error => exact hloses
  | @marked key notification hactive =>
    rw [Gate.requestIsActive, h.active] at hactive
    exact absurd (of_decide_eq_true hactive) (SortedSet.not_mem_empty _)
  | lost hpassed hfails =>
    rw [Gate.eq_admitted hpassed]
    exact iff_of_false (Gate.not_idle_admitted _ _) (not_not.mpr ⟨admits_of_passed hpassed, hfails⟩)
  | ended hpassed hreads =>
    rw [Gate.eq_admitted hpassed]
    exact iff_of_true (Gate.idle_endRequest h _) fun hloses => hreads hloses.2

/-- A step counts the request that it admits, within the limit. -/
theorem GateStep.seen (H : GateStep methods session envelope gate) :
    gate.rateLimit = session.gate.rateLimit ∧
      gate.requestsSeen = session.gate.requestsSeen + (admits methods session envelope).toNat ∧
      ∀ limit, gate.rateLimit = some limit → session.gate.requestsSeen ≤ limit →
        gate.requestsSeen ≤ limit := by
  cases H with
  | kept hkept =>
    rw [hkept]
    exact ⟨rfl, rfl, fun _ _ h => h⟩
  | marked => exact ⟨rfl, rfl, fun _ _ h => h⟩
  | lost hpassed _ =>
    rw [admits_of_passed hpassed, Gate.eq_admitted hpassed]
    exact ⟨rfl, rfl, fun limit hlimit _ => Gate.seen_lt_of_admitted hpassed hlimit⟩
  | ended hpassed _ =>
    rw [admits_of_passed hpassed, Gate.eq_admitted hpassed]
    exact ⟨rfl, rfl, fun limit hlimit _ => Gate.seen_lt_of_admitted hpassed hlimit⟩

variable [DecidableEq Mode] (methods)

theorem replayFails_iff {session : McpSession Mode Inner} {request : McpRequest Mode} :
    ReplayFails methods session request ↔ ∃ e, replays methods.server session request = .error e := by
  have hcodec : methods.server.codec = methods.codec := rfl
  constructor
  · intro h
    cases h with
    | @unwritten cassette e hsession hexpr =>
      refine ⟨e, ?_⟩
      simp only [replays, hsession, McpCassette.replay, hcodec, hexpr]
    | @unread cassette expr entry reply e hsession hexpr hentry hrequest hmem hreply =>
      cases hreplies : entry.replies.mapM methods.codec.exprToEnvelope with
      | error e =>
        refine ⟨e, ?_⟩
        simp only [replays, hsession, McpCassette.replay, hcodec, hexpr, hentry, hrequest, hreplies,
          ne_eq, not_true_eq_false, if_false]
        rfl
      | ok replies =>
        obtain ⟨reply', hread⟩ := Except.mapM_isOk_iff.mp ⟨replies, hreplies⟩ reply hmem
        cases hreply.symm.trans hread
  · rintro ⟨e, h⟩
    rw [replays] at h
    split at h
    · cases h
    · rename_i cassette hsession
      rw [McpCassette.replay] at h
      split at h
      · rename_i hexpr
        exact .unwritten hsession hexpr
      · rename_i expr hexpr
        split at h
        · cases h
        · rename_i entry hentry
          split at h
          · cases h
          · rename_i hrequest
            dsimp only at h
            cases hreplies : entry.replies.mapM methods.codec.exprToEnvelope with
            | error e' =>
              obtain ⟨reply, hmem, hreply⟩ := Except.mapM_eq_error hreplies
              exact .unread hsession hexpr hentry (not_not.mp hrequest) hmem hreply
            | ok replies =>
              rw [hcodec, hreplies] at h
              cases h

theorem handleMany_request_session (session : McpSession Mode Inner) (request : McpRequest Mode) :
    (handleMany methods (.request request) session).2 =
      (handleRequest methods.server request session).2 := by
  rw [handleMany, Effect.bind_apply]
  obtain ⟨result, session', hresult⟩ : ∃ result session',
    handleRequest methods.server request session = (result, session') := ⟨_, _, rfl⟩
  rw [hresult]
  cases result with
  | ok answer => rfl
  | error e => rfl

theorem handleMany_gate (session : McpSession Mode Inner) (envelope : McpEnvelope Mode) :
    GateStep methods session envelope (handleMany methods envelope session).2.gate := by
  cases envelope with
  | request request =>
    rw [handleMany_request_session]
    have hhandled := handleRequest_handled methods.server session request
    generalize (handleRequest methods.server request session).1 = result at hhandled
    generalize (handleRequest methods.server request session).2.gate = gate at hhandled ⊢
    have hreplays {replies : Option (List (McpEnvelope Mode))}
        (h : replays methods.server session request = .ok replies) :
        ¬ReplayFails methods session request := by
      intro hfails
      obtain ⟨e, he⟩ := (replayFails_iff methods).mp hfails
      cases h.symm.trans he
    cases hhandled with
    | denied hdenied =>
      apply GateStep.kept
      rw [admits, show session.gate.admitRequest (requestKey methods.debug request.id) = _ from
        hdenied]
      rfl
    | unreplayed hpassed hfailed => exact .lost hpassed ((replayFails_iff methods).mpr ⟨_, hfailed⟩)
    | replayed hpassed hreplay => exact .ended hpassed (hreplays hreplay)
    | cancelled hpassed hreplay => exact .ended hpassed (hreplays hreplay)
    | dispatched hpassed hreplay => exact .ended hpassed (hreplays hreplay)
    | unrecorded hpassed hreplay => exact .ended hpassed (hreplays hreplay)
  | notification notification =>
    show GateStep methods session _ (handleNotification methods notification session).gate
    rw [handleNotification]
    split
    · exact .kept rfl
    · exact .kept rfl
    · exact .kept rfl
    · rw [applyCancelNotification]
      split
      · exact .kept rfl
      · dsimp only
        split
        · rename_i hactive
          exact .marked hactive
        · exact .kept rfl
    · exact .kept rfl
  | response | error => exact .kept rfl

/-! ## Runs -/

variable (session)

/-- The session after the envelopes, whatever the answers to them. -/
def runEnvelopes (envelopes : List (McpEnvelope Mode)) : McpSession Mode Inner :=
  envelopes.foldl (fun session envelope => (handleMany methods envelope session).2) session

/-- How many requests are admitted in a run. -/
def admissions (session : McpSession Mode Inner) : List (McpEnvelope Mode) → Nat
  | [] => 0
  | envelope :: envelopes => (admits methods session envelope).toNat +
    admissions (handleMany methods envelope session).2 envelopes

/-- Between the envelopes of a run no request is active or cancelled, and the admitted requests are
counted within the limit. -/
structure Accounted (envelopes : List (McpEnvelope Mode)) : Prop where
  idle : ∀ handled, handled <+: envelopes → (runEnvelopes methods session handled).gate.Idle
  counted : ∀ handled, handled <+: envelopes →
    (runEnvelopes methods session handled).gate.requestsSeen = admissions methods session handled
  limited : ∀ handled, handled <+: envelopes → ∀ limit, session.gate.rateLimit = some limit →
    admissions methods session handled ≤ limit
  grows : ∀ handled handled', handled <+: handled' → handled' <+: envelopes →
    (runEnvelopes methods session handled).gate.requestsSeen ≤
      (runEnvelopes methods session handled').gate.requestsSeen

theorem runEnvelopes_append (handled rest : List (McpEnvelope Mode)) :
    runEnvelopes methods session (handled ++ rest) =
      runEnvelopes methods (runEnvelopes methods session handled) rest :=
  List.foldl_append

theorem runEnvelopes_concat (handled : List (McpEnvelope Mode)) (envelope : McpEnvelope Mode) :
    runEnvelopes methods session (handled ++ [envelope]) =
      (handleMany methods envelope (runEnvelopes methods session handled)).2 :=
  runEnvelopes_append methods session handled [envelope]

/-- A run counts the requests that it admits, within the limit. -/
theorem runEnvelopes_seen (envelopes : List (McpEnvelope Mode)) :
    (runEnvelopes methods session envelopes).gate.requestsSeen =
        session.gate.requestsSeen + admissions methods session envelopes ∧
      ∀ limit, session.gate.rateLimit = some limit → session.gate.requestsSeen ≤ limit →
        (runEnvelopes methods session envelopes).gate.requestsSeen ≤ limit := by
  induction envelopes generalizing session with
  | nil => exact ⟨rfl, fun _ _ h => h⟩
  | cons envelope envelopes ih =>
    obtain ⟨hrate, hseen, hlimit⟩ := (handleMany_gate methods session envelope).seen
    obtain ⟨hcount, hbound⟩ := ih (handleMany methods envelope session).2
    constructor
    · rw [admissions, ← Nat.add_assoc, ← hseen, ← hcount]
      rfl
    · intro limit hrateLimit hle
      rw [← hrate] at hrateLimit
      exact hbound limit hrateLimit (hlimit limit hrateLimit hle)

/-- A run from an idle session stays idle as long as no request is lost. -/
theorem runEnvelopes_idle_iff {envelopes : List (McpEnvelope Mode)} (hidle : session.gate.Idle) :
    (∀ handled, handled <+: envelopes → (runEnvelopes methods session handled).gate.Idle) ↔
      ∀ handled envelope, handled ++ [envelope] <+: envelopes →
        ¬Loses methods (runEnvelopes methods session handled) envelope := by
  constructor
  · intro h handled envelope hprefix
    have hbefore := h handled ((List.prefix_append _ _).trans hprefix)
    have hafter := h _ hprefix
    rw [runEnvelopes_concat] at hafter
    exact ((handleMany_gate methods _ envelope).idle_iff hbefore).mp hafter
  · intro h handled hprefix
    induction handled using List.reverseRecOn with
    | nil => exact hidle
    | append_singleton handled envelope ih =>
      have hbefore := ih ((List.prefix_append _ _).trans hprefix)
      rw [runEnvelopes_concat]
      exact ((handleMany_gate methods _ envelope).idle_iff hbefore).mpr (h handled envelope hprefix)

/-- The accounts of a run are kept, and two requests are kept apart, when the replay of no admitted
request of the run fails and the keys of the two differ. -/
theorem accounted_iff {session : McpSession Mode Inner} (hfresh : session.gate.Fresh)
    (envelopes : List (McpEnvelope Mode)) {id id' : Expr Mode} :
    Accounted methods session envelopes ∧ KeptApart methods.debug id id' ↔
      (∀ handled envelope, handled ++ [envelope] <+: envelopes →
        ¬Loses methods (runEnvelopes methods session handled) envelope) ∧
      requestKey methods.debug id ≠ requestKey methods.debug id' := by
  rw [keptApart_iff, ← runEnvelopes_idle_iff methods session hfresh.toIdle]
  refine and_congr_left fun _ => ⟨fun h => h.idle, fun hidle => ?_⟩
  have hcount (handled : List (McpEnvelope Mode)) :
      (runEnvelopes methods session handled).gate.requestsSeen =
        admissions methods session handled := by
    rw [(runEnvelopes_seen methods session handled).1, hfresh.seen, Nat.zero_add]
  refine ⟨hidle, fun handled _ => hcount handled, fun handled _ limit hlimit => ?_, ?_⟩
  · rw [← hcount]
    refine (runEnvelopes_seen methods session handled).2 limit hlimit ?_
    rw [hfresh.seen]
    exact Nat.zero_le limit
  · rintro handled _ ⟨rest, rfl⟩ -
    rw [runEnvelopes_append, (runEnvelopes_seen methods _ rest).1]
    exact Nat.le_add_right _ _

end

namespace AccountSample

def session (cassette : Option (McpCassette Unit)) : McpSession Unit Unit :=
  ⟨Sample.session.gate, cassette, ()⟩

/-- A cassette that holds a reply to a ping that is not an envelope. -/
def unread : McpCassette Unit :=
  .fromEntries [⟨Sample.codec.envelopeToExpr (.request (Sample.ping "nil")), [.nil]⟩]

theorem fresh (cassette : Option (McpCassette Unit)) : (session cassette).gate.Fresh :=
  ⟨⟨rfl, rfl⟩, rfl⟩

end AccountSample

theorem accounted_pings :
    Accounted ReplySample.methods (AccountSample.session none) [.request (Sample.ping "1")] ∧
        KeptApart ReplySample.methods.debug (.string "1") (.string "2") ↔
      (∀ handled envelope, handled ++ [envelope] <+: [.request (Sample.ping "1")] →
        ¬Loses ReplySample.methods
          (runEnvelopes ReplySample.methods (AccountSample.session none) handled) envelope) ∧
      requestKey ReplySample.methods.debug (.string "1") ≠
        requestKey ReplySample.methods.debug (.string "2") :=
  accounted_iff _ (AccountSample.fresh none) _

/-- A ping whose replay fails stays active, and the text nil is taken for no id. -/
theorem unread_ping_unaccounted : (AccountSample.session (some AccountSample.unread)).gate.Fresh ∧
    ¬Accounted ReplySample.methods (AccountSample.session (some AccountSample.unread))
      [.request (Sample.ping "nil")] ∧
    (.string "nil" : Expr Unit) ≠ .nil ∧
    ¬KeptApart ReplySample.methods.debug (.string "nil") .nil := by
  refine ⟨AccountSample.fresh _, fun h => ?_, nofun, fun h => keptApart_iff.mp h rfl⟩
  have hactive : (runEnvelopes ReplySample.methods
      (AccountSample.session (some AccountSample.unread))
      [.request (Sample.ping "nil")]).gate.activeRequests.elems = ["nil"] := by decide +kernel
  rw [(h.idle _ (List.prefix_refl _)).active] at hactive
  cases hactive

end SimAgentNet.Mcp
