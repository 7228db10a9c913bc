import SimAgentNet.Mcp.Exchange

/-! # Recording and replaying

A recording cassette also replays: its cursor stays at the first exchange until a request repeats
it. So a recording is true to the session exactly when the first request is not repeated. -/

namespace SimAgentNet.Mcp
variable {Mode Inner : Type}

section
variable (server : McpServer Mode Inner)

/-- The requests that are admitted and have not been cancelled. -/
def liveRequests : Gate → List (McpRequest Mode) → List (McpRequest Mode)
  | _, [] => []
  | gate, request :: requests =>
    match gate.admission (keyOf server request) with
    | .live => request :: liveRequests (gate.after (keyOf server request)) requests
    | _ => liveRequests (gate.after (keyOf server request)) requests

/-- No cancelled request is equal to the next live one. -/
def Unmistaken : Gate → List (McpRequest Mode) → Prop
  | _, [] => True
  | gate, request :: requests =>
    (gate.admission (keyOf server request) = .cancelled →
      (liveRequests server (gate.after (keyOf server request)) requests).head? ≠ some request) ∧
    Unmistaken (gate.after (keyOf server request)) requests

/-- The requests that a cassette can record and replay: the first live request is not repeated, and
no cancelled request is taken for a live one. -/
structure Replayable (gate : Gate) (requests : List (McpRequest Mode)) : Prop where
  once : ∀ first rest, liveRequests server gate requests = first :: rest → first ∉ rest
  unmistaken : Unmistaken server gate requests

/-- The answers to a sequence of requests when nothing is recorded or replayed. -/
def uncachedAll : Gate → Inner → List (McpRequest Mode) → List (Answer Mode)
  | _, _, [] => []
  | gate, inner, request :: requests =>
    (uncached server gate inner request).1 ::
      uncachedAll (gate.after (keyOf server request)) (uncached server gate inner request).2 requests

/-- What handling a sequence of requests does with a tape. -/
inductive Runs : Gate → Inner → Tape Mode → List (McpRequest Mode) → List (Answer Mode) →
    Tape Mode → Prop
  | nil {inner : Inner} : Runs gate inner tape [] [] tape
  | cons {inner : Inner} : Step server gate inner tape request answer tape' inner' →
    Runs (gate.after (keyOf server request)) inner' tape' requests answers tape'' →
    Runs gate inner tape (request :: requests) (answer :: answers) tape''

/-- A replay of recorded exchanges: it dispatches nothing, its replayed replies are the recorded
ones in order, and requests that were not dispatched when they were recorded are answered alike. -/
structure Reproduces (entries : List (McpCassetteEntry Mode))
    (recorded replayed : List (Answer Mode)) : Prop where
  quiet : ∀ answer ∈ replayed, answer.route ≠ .dispatched
  replies : entries.mapM (·.replies.mapM server.codec.exprToEnvelope) =
    .ok ((replayed.filter (·.route = .replayed)).map (·.replies))
  others : List.Forall₂ (fun answer answer' =>
    answer.route = .dispatched ∧ answer'.route = .replayed ∨ answer = answer') recorded replayed

variable [DecidableEq Mode]

/-- Recording a session does not change its replies, and replaying the recording reproduces it. -/
structure Faithful (session : McpSession Mode Inner) (requests : List (McpRequest Mode)) : Prop where
  unchanged :
    (handleAll server { session with cassette := some .new } requests).1.map (·.map Answer.replies) =
      (handleAll server { session with cassette := none } requests).1.map (·.map Answer.replies)
  reproduced : ∀ cassette,
    (handleAll server { session with cassette := some .new } requests).2.cassette = some cassette →
      ∃ recorded replayed,
        (handleAll server { session with cassette := some .new } requests).1 = recorded.map .ok ∧
        (handleAll server
          { session with cassette := some (.fromEntries cassette.entries) } requests).1 =
          replayed.map .ok ∧
        Reproduces server cassette.entries recorded replayed

end

section
variable {server : McpServer Mode Inner} {gate : Gate} {inner inner' : Inner}
  {tape tape' : Tape Mode} {request : McpRequest Mode} {requests : List (McpRequest Mode)}
  {answer : Answer Mode} {answers : List (Answer Mode)}

theorem liveRequests_live (h : gate.admission (keyOf server request) = .live) :
    liveRequests server gate (request :: requests) =
      request :: liveRequests server (gate.after (keyOf server request)) requests := by
  rw [liveRequests, h]

theorem liveRequests_skip (h : gate.admission (keyOf server request) ≠ .live) :
    liveRequests server gate (request :: requests) =
      liveRequests server (gate.after (keyOf server request)) requests := by
  rw [liveRequests]
  split
  · rename_i hlive
    exact absurd hlive h
  · rfl

theorem encode_inj (hcodec : server.codec.Lawful) {request' : McpRequest Mode}
    (h : encode server request = encode server request') : request = request' := by
  have hdecode := congrArg server.codec.exprToEnvelope h
  rw [encode, encode, hcodec.decode, hcodec.decode] at hdecode
  exact McpEnvelope.request.inj (Except.ok.inj hdecode)

/-! ## Runs -/

theorem Step.readable (H : Step server gate inner tape request answer tape' inner')
    (hreadable : tape.Readable server.codec) : tape'.Readable server.codec := by
  cases H with
  | denied | cancelled | replayed => exact hreadable
  | dispatched _ _ hexprs =>
    intro entry hentry
    obtain hentry | hentry := List.mem_append.mp hentry
    · exact hreadable entry hentry
    · rw [List.mem_singleton.mp hentry]
      exact ⟨_, hexprs⟩

theorem Runs.readable (H : Runs server gate inner tape requests answers tape')
    (hreadable : tape.Readable server.codec) : tape'.Readable server.codec := by
  induction H with
  | nil => exact hreadable
  | cons hstep _ ih => exact ih (hstep.readable hreadable)

/-- A request that is not replayed is answered as without a cassette. -/
theorem Step.eq_uncached (H : Step server gate inner tape request answer tape' inner')
    (hroute : answer.route ≠ .replayed) : (answer, inner') = uncached server gate inner request := by
  cases H with
  | denied hdenied => rw [uncached, hdenied]
  | cancelled hcancelled => rw [uncached, hcancelled]
  | replayed => exact absurd rfl hroute
  | dispatched hlive => rw [uncached, hlive]

theorem Runs.eq_uncachedAll (H : Runs server gate inner tape requests answers tape')
    (hroute : ∀ answer ∈ answers, answer.route ≠ .replayed) :
    answers = uncachedAll server gate inner requests := by
  induction H with
  | nil => rfl
  | cons hstep _ ih =>
    have huncached := hstep.eq_uncached (hroute _ List.mem_cons_self)
    rw [uncachedAll, ← huncached, ih fun answer hmem => hroute answer (List.mem_cons_of_mem _ hmem)]

theorem Step.entries_length (H : Step server gate inner tape request answer tape' inner') :
    tape'.entries.length +
        (liveRequests server (gate.after (keyOf server request)) requests).length ≤
      tape.entries.length + (liveRequests server gate (request :: requests)).length := by
  cases H with
  | denied hdenied => rw [liveRequests_skip (by rw [hdenied]; exact nofun)]
  | cancelled hcancelled => rw [liveRequests_skip (by rw [hcancelled]; exact nofun)]
  | replayed =>
    by_cases hlive : gate.admission (keyOf server request) = .live
    · rw [liveRequests_live hlive, List.length_cons]
      exact Nat.add_le_add_left (Nat.le_succ _) _
    · rw [liveRequests_skip hlive]
  | dispatched hlive =>
    rw [liveRequests_live hlive, List.length_cons, List.length_append, List.length_singleton]
    omega

/-- Only live requests are recorded. -/
theorem Runs.entries_length (H : Runs server gate inner tape requests answers tape') :
    tape'.entries.length ≤ tape.entries.length + (liveRequests server gate requests).length := by
  induction H with
  | nil => exact Nat.le_add_right _ _
  | cons hstep _ ih => exact ih.trans hstep.entries_length

/-! ## Recording -/

/-- The cursor is at the first exchange, whose request is no longer marked as cancelled. -/
structure Guarded (server : McpServer Mode Inner) (gate : Gate) (tape : Tape Mode) : Prop where
  next : tape.next = 0
  unmarked : ∀ entry first, tape.entries.head? = some entry → entry.request = encode server first →
    keyOf server first ∉ gate.cancelledRequests

/-- The request of the first exchange, or else the first live request, is not repeated. -/
structure Unrepeated (server : McpServer Mode Inner) (gate : Gate) (tape : Tape Mode)
    (requests : List (McpRequest Mode)) : Prop where
  fresh : tape.entries = [] →
    ∀ first rest, liveRequests server gate requests = first :: rest → first ∉ rest
  started : ∀ entry first, tape.entries.head? = some entry → entry.request = encode server first →
    first ∉ liveRequests server gate requests

theorem guarded_new (gate : Gate) : Guarded server gate (McpCassette.new : McpCassette Mode).tape :=
  ⟨rfl, fun _ _ hentry => nomatch hentry⟩

theorem Guarded.head? (hguard : Guarded server gate tape) : tape.head? = tape.entries.head? := by
  rw [Tape.head?, hguard.next, List.head?_eq_getElem?]

theorem head?_append_of_some {entries : List (McpCassetteEntry Mode)}
    {entry entry' : McpCassetteEntry Mode} (h : (entries ++ [entry']).head? = some entry) :
    entries.head? = some entry ∨ entries = [] ∧ entry = entry' := by
  cases entries with
  | nil => exact .inr ⟨rfl, (Option.some.inj h).symm⟩
  | cons => exact .inl h

theorem Step.guarded (hcodec : server.codec.Lawful)
    (H : Step server gate inner tape request answer tape' inner') (hroute : answer.route ≠ .replayed)
    (hguard : Guarded server gate tape) :
    Guarded server (gate.after (keyOf server request)) tape' := by
  have hunmarked : ∀ entry first, tape.entries.head? = some entry →
      entry.request = encode server first →
      keyOf server first ∉ (gate.after (keyOf server request)).cancelledRequests :=
    fun entry first hentry hfirst =>
      Gate.cancelledRequests_after (hguard.unmarked entry first hentry hfirst)
  cases H with
  | denied | cancelled => exact ⟨hguard.next, hunmarked⟩
  | replayed => exact absurd rfl hroute
  | dispatched hlive =>
    refine ⟨hguard.next, fun entry first hentry hfirst => ?_⟩
    obtain hentry | ⟨-, rfl⟩ := head?_append_of_some hentry
    · exact hunmarked entry first hentry hfirst
    · rw [← encode_inj hcodec hfirst]
      exact Gate.cancelledRequests_after (Gate.not_cancelled_of_live hlive)

/-- A guarded tape replays live requests only. -/
theorem Step.live_of_replayed
    (H : Step server gate inner tape request answer tape' inner') (hroute : answer.route = .replayed)
    (hguard : Guarded server gate tape) :
    gate.admission (keyOf server request) = .live ∧ tape'.entries = tape.entries ∧
      ∃ entry, tape.entries.head? = some entry ∧ entry.request = encode server request := by
  cases H with
  | denied | cancelled | dispatched => cases hroute
  | replayed hdenied hentry hrequest =>
    rw [hguard.head?] at hentry
    refine ⟨?_, rfl, _, hentry, hrequest⟩
    cases hadmission : gate.admission (keyOf server request) with
    | denied limit => exact absurd hadmission (hdenied limit)
    | cancelled =>
      exact absurd (Gate.cancelled_of_cancelled hadmission) (hguard.unmarked _ _ hentry hrequest)
    | live => rfl

theorem unrepeated_skip (h : gate.admission (keyOf server request) ≠ .live) :
    Unrepeated server gate tape (request :: requests) ↔
      Unrepeated server (gate.after (keyOf server request)) tape requests := by
  have hskip : liveRequests server gate (request :: requests) =
      liveRequests server (gate.after (keyOf server request)) requests := liveRequests_skip h
  exact ⟨fun ⟨hfresh, hstarted⟩ => ⟨hskip ▸ hfresh, hskip ▸ hstarted⟩,
    fun ⟨hfresh, hstarted⟩ => ⟨hskip ▸ hfresh, hskip ▸ hstarted⟩⟩

theorem Step.unrepeated (hcodec : server.codec.Lawful)
    (H : Step server gate inner tape request answer tape' inner') (hroute : answer.route ≠ .replayed)
    (hguard : Guarded server gate tape) :
    Unrepeated server gate tape (request :: requests) ↔
      Unrepeated server (gate.after (keyOf server request)) tape' requests := by
  cases H with
  | replayed => exact absurd rfl hroute
  | denied hdenied => exact unrepeated_skip (by rw [hdenied]; exact nofun)
  | cancelled hcancelled => exact unrepeated_skip (by rw [hcancelled]; exact nofun)
  | @dispatched exprs _ hlive hmiss =>
    have hlives : liveRequests server gate (request :: requests) =
        request :: liveRequests server (gate.after (keyOf server request)) requests :=
      liveRequests_live hlive
    constructor
    · intro h
      refine ⟨fun hnil => absurd hnil (List.append_ne_nil_of_right_ne_nil _ (List.cons_ne_nil _ _)),
        fun entry first hentry hfirst => ?_⟩
      obtain hentry | ⟨hnil, rfl⟩ := head?_append_of_some hentry
      · have hnot := h.started entry first hentry hfirst
        rw [hlives] at hnot
        exact fun hmem => hnot (List.mem_cons_of_mem _ hmem)
      · rw [← encode_inj hcodec hfirst]
        exact h.fresh hnil _ _ hlives
    · intro h
      refine ⟨fun hnil first rest hfirst => ?_, fun entry first hentry hfirst => ?_⟩
      · obtain ⟨rfl, rfl⟩ := List.cons.inj (hlives.symm.trans hfirst)
        refine h.started ⟨encode server request, exprs⟩ request ?_ rfl
        rw [hnil]
        rfl
      · have hnot := h.started entry first (by rw [List.head?_append, hentry]; rfl) hfirst
        rw [hlives, List.mem_cons, not_or]
        refine ⟨fun heq => ?_, hnot⟩
        rw [← hguard.head?] at hentry
        exact hmiss entry hentry (heq ▸ hfirst)

/-- What is not repeated is not replayed while it is recorded. -/
theorem Runs.unreplayed (hcodec : server.codec.Lawful)
    (H : Runs server gate inner tape requests answers tape') (hguard : Guarded server gate tape)
    (honce : Unrepeated server gate tape requests) :
    ∀ answer ∈ answers, answer.route ≠ .replayed := by
  induction H with
  | nil => exact nofun
  | @cons _ _ _ answer _ _ _ _ _ _ hstep _ ih =>
    have hroute : answer.route ≠ .replayed := by
      intro hreplayed
      obtain ⟨hlive, -, entry, hentry, hrequest⟩ := hstep.live_of_replayed hreplayed hguard
      refine honce.started entry _ hentry hrequest ?_
      rw [liveRequests_live hlive]
      exact List.mem_cons_self
    rw [List.forall_mem_cons]
    exact ⟨hroute, ih (hstep.guarded hcodec hroute hguard)
      ((hstep.unrepeated hcodec hroute hguard).mp honce)⟩

/-- Where every live request is recorded, the first is not repeated. -/
theorem Runs.unrepeated (hcodec : server.codec.Lawful)
    (H : Runs server gate inner tape requests answers tape') (hguard : Guarded server gate tape)
    (hfull : tape.entries.length + (liveRequests server gate requests).length ≤
      tape'.entries.length) : Unrepeated server gate tape requests := by
  induction H with
  | nil => exact ⟨fun _ _ _ h => absurd h (List.cons_ne_nil _ _).symm, fun _ _ _ _ => List.not_mem_nil⟩
  | @cons _ _ _ answer _ _ _ _ _ _ hstep hruns ih =>
    have hroute : answer.route ≠ .replayed := by
      intro hreplayed
      obtain ⟨hlive, hkept, -⟩ := hstep.live_of_replayed hreplayed hguard
      have hrest := hruns.entries_length
      rw [hkept] at hrest
      rw [liveRequests_live hlive, List.length_cons] at hfull
      omega
    refine (hstep.unrepeated hcodec hroute hguard).mpr (ih (hstep.guarded hcodec hroute hguard) ?_)
    exact hstep.entries_length.trans hfull

/-! ## Replaying -/

namespace Reproduces
variable {entries : List (McpCassetteEntry Mode)} {recorded replayed : List (Answer Mode)}

theorem keep (H : Reproduces server entries recorded replayed) (hdispatched : answer.route ≠ .dispatched)
    (hreplayed : answer.route ≠ .replayed) :
    Reproduces server entries (answer :: recorded) (answer :: replayed) where
  quiet := List.forall_mem_cons.mpr ⟨hdispatched, H.quiet⟩
  replies := by
    rw [List.filter_cons_of_neg (by simpa using hreplayed)]
    exact H.replies
  others := .cons (.inr rfl) H.others

theorem replay {entry : McpCassetteEntry Mode} {replies : List (McpEnvelope Mode)}
    (H : Reproduces server entries recorded replayed) (hdispatched : answer.route = .dispatched)
    (hreplies : entry.replies.mapM server.codec.exprToEnvelope = .ok replies) :
    Reproduces server (entry :: entries) (answer :: recorded) (⟨.replayed, replies⟩ :: replayed) where
  quiet := List.forall_mem_cons.mpr ⟨Route.noConfusion, H.quiet⟩
  replies := by
    rw [List.mapM_cons, hreplies, H.replies, List.filter_cons_of_pos (by rfl)]
    rfl
  others := .cons (.inl ⟨hdispatched, rfl⟩) H.others

end Reproduces

theorem Tape.head?_append (before entries : List (McpCassetteEntry Mode)) :
    (Tape.mk (before ++ entries) before.length).head? = entries.head? := by
  rw [Tape.head?, List.getElem?_append_right (Nat.le_refl _), Nat.sub_self, List.head?_eq_getElem?]

theorem Tape.drop_of_head? {entry : McpCassetteEntry Mode} (h : tape.head? = some entry) :
    tape.entries.drop tape.next = entry :: tape.entries.drop (tape.next + 1) := by
  obtain ⟨hlength, hentry⟩ := List.getElem?_eq_some_iff.mp h
  rw [List.drop_eq_getElem_cons hlength, hentry]

/-- The exchanges of a run that replays nothing are those of its live requests, and a tape at the
first of them reproduces the run. -/
theorem Runs.recorded (hcodec : server.codec.Lawful)
    (H : Runs server gate inner tape requests answers tape')
    (hroute : ∀ answer ∈ answers, answer.route ≠ .replayed) :
    ∃ entries, tape'.entries = tape.entries ++ entries ∧
      entries.map (·.request) = (liveRequests server gate requests).map (encode server) ∧
      (Unmistaken server gate requests → ∀ before inner replayed tape'',
        Runs server gate inner ⟨before ++ entries, before.length⟩ requests replayed tape'' →
          Reproduces server entries answers replayed) := by
  induction H with
  | nil =>
    refine ⟨[], (List.append_nil _).symm, rfl, fun _ _ _ _ _ hreplay => ?_⟩
    cases hreplay
    exact ⟨nofun, rfl, .nil⟩
  | @cons _ _ request _ _ _ _ _ _ _ hstep _ ih =>
    rw [List.forall_mem_cons] at hroute
    obtain ⟨entries, hentries, hmap, hreproduced⟩ := ih hroute.2
    cases hstep with
    | replayed => exact absurd rfl hroute.1
    | denied hdenied =>
      refine ⟨entries, hentries, ?_, fun hunmistaken before inner replayed tape'' hreplay => ?_⟩
      · rw [liveRequests_skip (by rw [hdenied]; exact nofun), hmap]
      · cases hreplay with
        | cons hstep hruns =>
          cases hstep with
          | denied hdenied' =>
            cases hdenied.symm.trans hdenied'
            exact (hreproduced hunmistaken.2 _ _ _ _ hruns).keep Route.noConfusion Route.noConfusion
          | cancelled h | dispatched h => cases hdenied.symm.trans h
          | replayed h => exact absurd hdenied (h _)
    | cancelled hcancelled =>
      refine ⟨entries, hentries, ?_, fun hunmistaken before inner replayed tape'' hreplay => ?_⟩
      · rw [liveRequests_skip (by rw [hcancelled]; exact nofun), hmap]
      · cases hreplay with
        | cons hstep hruns =>
          cases hstep with
          | denied h | dispatched h => cases hcancelled.symm.trans h
          | cancelled =>
            exact (hreproduced hunmistaken.2 _ _ _ _ hruns).keep Route.noConfusion Route.noConfusion
          | replayed _ hentry hrequest =>
            have hhead := congrArg List.head? hmap
            rw [Tape.head?_append] at hentry
            rw [List.head?_map, List.head?_map, hentry, Option.map_some, hrequest] at hhead
            obtain ⟨next, hnext, hencode⟩ := Option.map_eq_some_iff.mp hhead.symm
            rw [encode_inj hcodec hencode] at hnext
            exact absurd hnext (hunmistaken.1 hcancelled)
    | @dispatched exprs _ hlive =>
      refine ⟨⟨encode server request, exprs⟩ :: entries, hentries.trans (List.append_assoc ..), ?_,
        fun hunmistaken before inner replayed tape'' hreplay => ?_⟩
      · rw [liveRequests_live hlive, List.map_cons, List.map_cons, hmap]
      · cases hreplay with
        | cons hstep hruns =>
          cases hstep with
          | denied h | cancelled h => cases hlive.symm.trans h
          | replayed _ hentry _ hreplies =>
            rw [Tape.head?_append] at hentry
            cases hentry
            refine (hreproduced hunmistaken.2 (before ++ [⟨encode server request, exprs⟩])
              inner _ tape'' ?_).replay rfl hreplies
            rw [List.append_assoc, List.length_append]
            exact hruns
          | dispatched _ hmiss => exact absurd rfl (hmiss _ (Tape.head?_append before (_ :: entries)))

/-- A run that dispatches nothing replays every live request. -/
theorem Runs.exhausted (H : Runs server gate inner tape requests answers tape')
    (hquiet : ∀ answer ∈ answers, answer.route ≠ .dispatched)
    (hleft : tape.entries.length ≤ tape.next + (liveRequests server gate requests).length) :
    (tape.entries.drop tape.next).map (·.request) =
        (liveRequests server gate requests).map (encode server) ∧
      Unmistaken server gate requests := by
  induction H with
  | nil =>
    refine ⟨?_, trivial⟩
    have hdrop := List.drop_of_length_le hleft
    rw [liveRequests, List.length_nil, Nat.add_zero] at hdrop
    rw [hdrop]
    rfl
  | cons hstep _ ih =>
    rw [List.forall_mem_cons] at hquiet
    cases hstep with
    | dispatched => exact absurd rfl hquiet.1
    | denied hdenied =>
      rw [liveRequests_skip (by rw [hdenied]; exact nofun)] at hleft ⊢
      obtain ⟨hmap, hunmistaken⟩ := ih hquiet.2 hleft
      exact ⟨hmap, by rw [hdenied]; exact nofun, hunmistaken⟩
    | cancelled hcancelled hmiss =>
      rw [liveRequests_skip (by rw [hcancelled]; exact nofun)] at hleft ⊢
      obtain ⟨hmap, hunmistaken⟩ := ih hquiet.2 hleft
      refine ⟨hmap, fun _ hnext => ?_, hunmistaken⟩
      have hhead := congrArg List.head? hmap
      rw [List.head?_map, List.head?_drop, List.head?_map, hnext] at hhead
      obtain ⟨entry, hentry, hrequest⟩ := Option.map_eq_some_iff.mp hhead
      exact hmiss entry hentry hrequest
    | replayed hdenied hentry hrequest _ =>
      have hlength := List.getElem?_eq_some_iff.mp hentry |>.1
      cases hadmission : Gate.admission _ (keyOf server _) with
      | denied limit => exact absurd hadmission (hdenied limit)
      | cancelled =>
        rw [liveRequests_skip (by rw [hadmission]; exact nofun)] at hleft
        obtain ⟨hmap, -⟩ := ih hquiet.2 (by dsimp only; omega)
        have hcount := congrArg List.length hmap
        rw [List.length_map, List.length_map, List.length_drop] at hcount
        dsimp only at hcount
        omega
      | live =>
        rw [liveRequests_live hadmission, List.length_cons] at hleft
        obtain ⟨hmap, hunmistaken⟩ := ih hquiet.2 (by dsimp only; omega)
        rw [liveRequests_live hadmission, Tape.drop_of_head? hentry, List.map_cons, List.map_cons,
          hrequest, hmap]
        exact ⟨rfl, by rw [hadmission]; exact nofun, hunmistaken⟩

variable [DecidableEq Mode]

theorem handleAll_runs (gate : Gate) (inner : Inner) (cassette : McpCassette Mode)
    (hcodec : server.codec.Lawful)
    (hplain : ∀ request ∈ requests, secretFree (encode server request) = true)
    (hreadable : cassette.tape.Readable server.codec) :
    ∃ (answers : List (Answer Mode)) (cassette' : McpCassette Mode),
      (handleAll server ⟨gate, some cassette, inner⟩ requests).1 = answers.map .ok ∧
      (handleAll server ⟨gate, some cassette, inner⟩ requests).2.cassette = some cassette' ∧
      Runs server gate inner cassette.tape requests answers cassette'.tape := by
  induction requests generalizing gate cassette inner with
  | nil => exact ⟨[], cassette, rfl, rfl, .nil⟩
  | cons request requests ih =>
    obtain ⟨answer, cassette', inner', hhandle, hstep⟩ :=
      handleRequest_step hcodec (hplain request List.mem_cons_self)
        (show (McpSession.mk gate (some cassette) inner).cassette = some cassette from rfl) hreadable
    obtain ⟨answers, cassette'', hanswers, hcassette, hruns⟩ :=
      ih _ inner' cassette' (fun request hmem => hplain request (List.mem_cons_of_mem _ hmem)) (hstep.readable hreadable)
    refine ⟨answer :: answers, cassette'', ?_, ?_, .cons hstep hruns⟩
    · simp only [handleAll, hhandle, List.map_cons]
      rw [← hanswers]
    · simp only [handleAll, hhandle]
      exact hcassette

theorem handleAll_uncached :
    (handleAll server ⟨gate, none, inner⟩ requests).1 =
      (uncachedAll server gate inner requests).map .ok := by
  induction requests generalizing gate inner with
  | nil => rfl
  | cons request requests ih =>
    have hhandle : handleRequest server request ⟨gate, none, inner⟩ = _ := handleRequest_uncached rfl
    simp only [handleAll, hhandle, uncachedAll, List.map_cons, ih]

theorem faithful_of_replayable {session : McpSession Mode Inner} (hcodec : server.codec.Lawful)
    (hplain : ∀ request ∈ requests, secretFree (encode server request) = true)
    (H : Replayable server session.gate requests) : Faithful server session requests := by
  obtain ⟨gate, _, inner⟩ := session
  obtain ⟨recorded, cassette, hrecorded, hcassette, hrecording⟩ :=
    handleAll_runs gate inner .new hcodec hplain nofun
  have honce : Unrepeated server gate (McpCassette.new : McpCassette Mode).tape requests :=
    ⟨fun _ => H.once, fun _ _ hentry => nomatch hentry⟩
  have hroute := hrecording.unreplayed hcodec (guarded_new gate) honce
  obtain ⟨entries, hentries, -, hreproduced⟩ := hrecording.recorded hcodec hroute
  have hreadable : cassette.tape.Readable server.codec := hrecording.readable nofun
  constructor
  · rw [hrecorded, handleAll_uncached, hrecording.eq_uncachedAll hroute]
  · intro cassette' hcassette'
    cases hcassette.symm.trans hcassette'
    obtain ⟨replayed, _, hreplayed, -, hreplay⟩ :=
      handleAll_runs gate inner (.fromEntries cassette.entries) hcodec hplain hreadable
    refine ⟨recorded, replayed, hrecorded, hreplayed, ?_⟩
    have hsame : cassette.entries = entries := hentries
    rw [hsame] at hreplay ⊢
    exact hreproduced H.unmistaken [] inner replayed _ hreplay

theorem replayable_of_faithful {session : McpSession Mode Inner} (hcodec : server.codec.Lawful)
    (hplain : ∀ request ∈ requests, secretFree (encode server request) = true)
    (H : Faithful server session requests) : Replayable server session.gate requests := by
  obtain ⟨gate, _, inner⟩ := session
  obtain ⟨recorded, cassette, hrecorded, hcassette, hrecording⟩ :=
    handleAll_runs gate inner .new hcodec hplain nofun
  have hreadable : cassette.tape.Readable server.codec := hrecording.readable nofun
  obtain ⟨replayed, _, hreplayed, -, hreplay⟩ :=
    handleAll_runs gate inner (.fromEntries cassette.entries) hcodec hplain hreadable
  obtain ⟨recorded', replayed', -, hreplayed', hreproduced⟩ := H.reproduced cassette hcassette
  have hsame : replayed = replayed' :=
    List.map_injective_iff.mpr (fun _ _ => Except.ok.inj) (hreplayed.symm.trans hreplayed')
  have hlength := hrecording.entries_length
  rw [show (McpCassette.new : McpCassette Mode).tape.entries.length = 0 from rfl] at hlength
  obtain ⟨hmap, hunmistaken⟩ := hreplay.exhausted (hsame ▸ hreproduced.quiet) hlength
  have hcount := congrArg List.length hmap
  rw [List.length_map, List.length_map] at hcount
  have hfull : (McpCassette.new : McpCassette Mode).tape.entries.length +
      (liveRequests server gate requests).length ≤ cassette.tape.entries.length := by
    rw [← hcount]
    exact Nat.le_of_eq (Nat.zero_add _)
  exact ⟨(hrecording.unrepeated hcodec (guarded_new gate) hfull).fresh rfl, hunmistaken⟩

/-- A cassette is faithful to the sequences of requests it can record and replay, and to no other. -/
theorem faithful_iff {session : McpSession Mode Inner} (hcodec : server.codec.Lawful)
    (hplain : ∀ request ∈ requests, secretFree (encode server request) = true) :
    Faithful server session requests ↔ Replayable server session.gate requests :=
  ⟨replayable_of_faithful hcodec hplain, faithful_of_replayable hcodec hplain⟩

end

/-! ## A server that counts -/

namespace Sample

/-- Envelopes are told apart by their constructors, codes are lengths of byte strings. -/
def codec : McpCodec Unit where
  envelopeToExpr
    | .request ⟨id, method, params⟩ => .list [id, .string method, params]
    | .notification ⟨method, params⟩ => .vector [.string method, params]
    | .response ⟨id, result⟩ => .set [id, result]
    | .error ⟨id, .ofNat code, message, data⟩ =>
      .block [id, .bool false, .bytes (List.replicate code 0), .string message, data]
    | .error ⟨id, .negSucc code, message, data⟩ =>
      .block [id, .bool true, .bytes (List.replicate code 0), .string message, data]
  exprToEnvelope
    | .list [id, .string method, params] => .ok (.request ⟨id, method, params⟩)
    | .vector [.string method, params] => .ok (.notification ⟨method, params⟩)
    | .set [id, result] => .ok (.response ⟨id, result⟩)
    | .block [id, .bool false, .bytes code, .string message, data] =>
      .ok (.error ⟨id, .ofNat code.length, message, data⟩)
    | .block [id, .bool true, .bytes code, .string message, data] =>
      .ok (.error ⟨id, .negSucc code.length, message, data⟩)
    | _ => .error ⟨.wrongShape, "not an envelope"⟩
  cancelled := -32800
  capabilityDenied := -32001
  executionError := -32000
  internalError := -32603
  invalidParams := -32602
  methodNotFound := -32601
  rateLimited := -32002

theorem redactExpr_string (text : String) :
    ∃ text', redactExpr (.string text : Expr Unit) false = .string text' := by
  cases h : looksSecret text with
  | true => exact ⟨_, by simp [redactExpr, h]; rfl⟩
  | false => exact ⟨_, by simp [redactExpr, h]; rfl⟩

theorem codec_lawful : codec.Lawful where
  decode
    | .request _ | .notification _ | .response _ => rfl
    | .error ⟨_, .ofNat code, _, _⟩ => by simp [codec]
    | .error ⟨_, .negSucc code, _, _⟩ => by simp [codec]
  redacted
    | .request ⟨id, method, params⟩ => by
      obtain ⟨method', h⟩ := redactExpr_string method
      show ∃ envelope, codec.exprToEnvelope (.list [redactExpr id false,
        redactExpr (.string method) false, redactExpr params false]) = .ok envelope
      rw [h]
      exact ⟨_, rfl⟩
    | .notification ⟨method, params⟩ => by
      obtain ⟨method', h⟩ := redactExpr_string method
      show ∃ envelope, codec.exprToEnvelope (.vector [redactExpr (.string method) false,
        redactExpr params false]) = .ok envelope
      rw [h]
      exact ⟨_, rfl⟩
    | .response _ => ⟨_, rfl⟩
    | .error ⟨id, code, message, data⟩ => by
      obtain ⟨message', h⟩ := redactExpr_string message
      cases code with
      | ofNat code =>
        show ∃ envelope, codec.exprToEnvelope (.block [redactExpr id false, .bool false,
          .bytes (List.replicate code 0), redactExpr (.string message) false,
          redactExpr data false]) = .ok envelope
        rw [h]
        exact ⟨_, rfl⟩
      | negSucc code =>
        show ∃ envelope, codec.exprToEnvelope (.block [redactExpr id false, .bool true,
          .bytes (List.replicate code 0), redactExpr (.string message) false,
          redactExpr data false]) = .ok envelope
        rw [h]
        exact ⟨_, rfl⟩

/-- Its result tells whether a request came before. -/
def server : McpServer Unit Nat where
  codec := codec
  debug _ := ""
  notFoundErrorData _ := none
  dispatchRequest _ _ _ := fun served => (.ok ⟨.bool (served != 0), []⟩, served + 1)

def session : McpSession Unit Nat := ⟨⟨none, none, none, 0, ∅, ∅⟩, none, 0⟩

def ping (id : String) : McpRequest Unit := ⟨.string id, "ping", .nil⟩

/-- The result of a reply, where it is a truth value. -/
def result : Except Error (List (McpEnvelope Unit)) → Option Bool
  | .ok [.response ⟨_, .bool value⟩] => some value
  | _ => none

theorem ping_plain (id : String) (hid : looksSecret id = false) :
    secretFree (encode server (ping id)) = true := by
  have hmethod : looksSecret "ping" = false := by decide +kernel
  simp [encode, server, codec, ping, secretFree, secretFreeItems, hid, hmethod]

theorem pings_replayable : Replayable server session.gate [ping "1", ping "2"] := by
  have hlive : liveRequests server session.gate [ping "1", ping "2"] = [ping "1", ping "2"] := rfl
  refine ⟨fun first rest h => ?_, nofun, nofun, trivial⟩
  obtain ⟨rfl, rfl⟩ := List.cons.inj (hlive.symm.trans h)
  simp [ping]

end Sample

theorem pings_faithful : Faithful Sample.server Sample.session [Sample.ping "1", Sample.ping "2"] :=
  (faithful_iff Sample.codec_lawful (by
    intro request hrequest
    simp only [List.mem_cons, List.not_mem_nil, or_false] at hrequest
    obtain rfl | rfl := hrequest
    · exact Sample.ping_plain "1" (by decide +kernel)
    · exact Sample.ping_plain "2" (by decide +kernel))).mpr Sample.pings_replayable

/-- The answer to a request that is sent twice is taken from the recording of the first. -/
theorem repeated_ping_unfaithful :
    Sample.codec.Lawful ∧
      (∀ request ∈ [Sample.ping "1", Sample.ping "1"],
        secretFree (encode Sample.server request) = true) ∧
      ¬Faithful Sample.server Sample.session [Sample.ping "1", Sample.ping "1"] := by
  have hplain : secretFree (encode Sample.server (Sample.ping "1")) = true :=
    Sample.ping_plain "1" (by decide +kernel)
  refine ⟨Sample.codec_lawful, by simp [hplain], fun H => ?_⟩
  have hcached : ((handleAll Sample.server { Sample.session with cassette := some .new }
      [Sample.ping "1", Sample.ping "1"]).1.map (·.map Answer.replies)).map Sample.result =
        [some false, some false] := by decide +kernel
  have huncached : ((handleAll Sample.server { Sample.session with cassette := none }
      [Sample.ping "1", Sample.ping "1"]).1.map (·.map Answer.replies)).map Sample.result =
        [some false, some true] := by decide +kernel
  rw [H.unchanged, huncached] at hcached
  exact absurd hcached (by decide)

end SimAgentNet.Mcp
