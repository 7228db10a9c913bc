import SimAgentNet.McpClient.Belongs
import SimAgentNet.McpClient.Trace

/-! # The rounds of an invocation

A peer may answer an invocation with a demand for input, again and again. What the client then asks
of its broker and sends to the peer is bounded over all rounds together. The totals are those of
texts in memory, for which the sums of the client do not saturate. -/

namespace SimAgentNet.McpClient
open OpenaiServer (Json Serde)

/-! ## Disciplined rounds -/

section
variable (serde : Serde)

/-- The inputs that the broker gave, round by round. -/
def inputsOf (rounds : List Event) : List (List (String × Json)) :=
  rounds.filterMap fun
    | .acquired _ _ (.ok inputs) => some inputs
    | _ => none

def totalInputs (rounds : List Event) : Nat := ((inputsOf rounds).map (·.length)).sum

def totalBytes (rounds : List Event) : Nat :=
  ((inputsOf rounds).map fun inputs => (Text.utf8 (serde.toText (.object inputs))).length).sum

/-- The request is the first, or it retries the last one: the peer demanded input, the broker gave
it, and the state goes back with it while all inputs so far are within the policy. -/
def Justified (policy : ClientPolicy) (parameters : Json) (before : List Event) (params : Json) :
    Prop :=
  before = [] ∧ params = parameters ∨
    ∃ (earlier : List Event) (last : Exchange) (requestState : Json)
      (requested : List (String × String)) (inputs : List (String × Json)),
      before = earlier ++ [Event.asked last, .acquired requested requestState (.ok inputs)] ∧
      last.reply = .ok (.inputRequired requestState requested) ∧
      params = .object [("inputs", .object inputs), ("requestState", requestState)] ∧
      totalInputs before ≤ policy.maximumInputs ∧
      totalBytes serde before ≤ policy.maximumInputBytes

/-- What an invocation may ask of the peer and of the broker. -/
structure Disciplined (policy : ClientPolicy) (method : String) (capabilities : List String)
    (parameters : Json) (rounds : List Event) : Prop where
  bounded : (exchanges rounds).length ≤ policy.maximumInputRounds + 1
  method : ∀ e ∈ exchanges rounds, e.method = method
  declared : ∀ requested requestState inputs, .acquired requested requestState inputs ∈ rounds →
    ∀ request ∈ requested, request.2 ∈ capabilities
  sent : ∀ before (e : Exchange) after, rounds = before ++ Event.asked e :: after →
    Justified serde policy parameters before e.params

end

theorem split_concat {rounds before after : List α} {x y : α}
    (h : rounds ++ [x] = before ++ y :: after) :
    rounds = before ∧ x = y ∨ ∃ after', rounds = before ++ y :: after' := by
  rcases List.eq_nil_or_concat after with rfl | ⟨after', last, rfl⟩
  · obtain ⟨hrounds, hlast⟩ := List.append_inj' h rfl
    exact .inl ⟨hrounds, List.singleton_inj.mp hlast⟩
  · rw [List.concat_eq_append, ← List.cons_append, ← List.append_assoc] at h
    exact .inr ⟨after', (List.append_inj' h rfl).1⟩

section
variable {serde : Serde} {policy : ClientPolicy} {method : String} {capabilities : List String}
  {parameters : Json} {rounds : List Event}

theorem Disciplined.nil : Disciplined serde policy method capabilities parameters [] where
  bounded := Nat.zero_le _
  method := List.forall_mem_nil _
  declared := fun _ _ _ h => by cases h
  sent before e after h := by
    have hlength := congrArg List.length h
    rw [List.length_append, List.length_cons, List.length_nil] at hlength
    omega

theorem Disciplined.asked {e : Exchange}
    (h : Disciplined serde policy method capabilities parameters rounds)
    (hbounded : (exchanges rounds).length ≤ policy.maximumInputRounds) (hmethod : e.method = method)
    (hjustified : Justified serde policy parameters rounds e.params) :
    Disciplined serde policy method capabilities parameters (rounds ++ [Event.asked e]) where
  bounded := by
    rw [exchanges_append, List.length_append]
    exact Nat.succ_le_succ hbounded
  method e' he' := by
    rw [exchanges_append] at he'
    rcases List.mem_append.mp he' with he' | he'
    · exact h.method e' he'
    · cases List.mem_singleton.mp he'
      exact hmethod
  declared requested requestState inputs hmem := by
    rcases List.mem_append.mp hmem with hmem | hmem
    · exact h.declared requested requestState inputs hmem
    · cases List.mem_singleton.mp hmem
  sent before e' after hsplit := by
    rcases split_concat hsplit with ⟨rfl, he⟩ | ⟨after', hrounds⟩
    · cases he
      exact hjustified
    · exact h.sent before e' after' hrounds

theorem Disciplined.acquired {requested : List (String × String)} {requestState : Json}
    {inputs : Except ClientError (List (String × Json))}
    (h : Disciplined serde policy method capabilities parameters rounds)
    (hdeclared : ∀ request ∈ requested, request.2 ∈ capabilities) :
    Disciplined serde policy method capabilities parameters
      (rounds ++ [Event.acquired requested requestState inputs]) where
  bounded := by
    rw [exchanges_append, show exchanges [.acquired requested requestState inputs] = [] from rfl,
      List.append_nil]
    exact h.bounded
  method e he := by
    rw [exchanges_append] at he
    rcases List.mem_append.mp he with he | he
    · exact h.method e he
    · cases he
  declared requested' requestState' inputs' hmem := by
    rcases List.mem_append.mp hmem with hmem | hmem
    · exact h.declared requested' requestState' inputs' hmem
    · cases List.mem_singleton.mp hmem
      exact hdeclared
  sent before e after hsplit := by
    rcases split_concat hsplit with ⟨-, he⟩ | ⟨after', hrounds⟩
    · cases he
    · exact h.sent before e after' hrounds

end

theorem inputsOf_append (rounds more : List Event) :
    inputsOf (rounds ++ more) = inputsOf rounds ++ inputsOf more := List.filterMap_append

theorem totalInputs_append (rounds more : List Event) :
    totalInputs (rounds ++ more) = totalInputs rounds + totalInputs more := by
  rw [totalInputs, inputsOf_append, List.map_append, List.sum_append]
  rfl

theorem totalBytes_append (serde : Serde) (rounds more : List Event) :
    totalBytes serde (rounds ++ more) = totalBytes serde rounds + totalBytes serde more := by
  rw [totalBytes, inputsOf_append, List.map_append, List.sum_append]
  rfl

/-! ## Rounds of the client -/

section
variable {World : Type} {serde : Serde} {packageVersion : String} {capacity : Nat} {api : CardApi}
  {client : Client World} {context : CallContext World} {invocation : Invocation}
  {parameters : Value} {base : List Event} {cache : MemoryState}

/-- The rows of a cache are old, or satisfy the output schema. -/
def Checked (invocation : Invocation) (cache cache' : MemoryState) : Prop :=
  ∀ key entry, cache'.Has key entry → cache.Has key entry ∨ invocation.output entry.value = .ok ()

variable (serde client context invocation parameters base cache) in
/-- The invocation has these rounds behind it. -/
structure After (rounds : List Event) (s : Session (Traced World)) : Prop where
  trace : s.trace = base ++ rounds
  disciplined : Disciplined serde client.policy invocation.method context.inputCapabilities
    parameters.1 rounds
  checked : Checked invocation cache s.cache

variable (serde client context invocation parameters base cache) in
def Orderly (s : Session (Traced World)) : Prop :=
  ∃ rounds, After serde client context invocation parameters base cache rounds s

variable (serde client context invocation parameters base cache) in
/-- The invocation may ask with `params`, and after that for input `left` more times. -/
structure Ready (left : Nat) (params : Json) (inputs bytes : Nat) (rounds : List Event)
    (s : Session (Traced World)) : Prop
    extends After serde client context invocation parameters base cache rounds s where
  left : (exchanges rounds).length + left ≤ client.policy.maximumInputRounds
  justified : Justified serde client.policy parameters.1 rounds params
  inputs : inputs = totalInputs rounds
  bytes : bytes = totalBytes serde rounds

variable (serde client context invocation parameters base cache) in
/-- The invocation asked last for `last`, and it may ask for input `left` more times. -/
structure Replied (left : Nat) (reply : Except BindingError PeerReply) (inputs bytes : Nat)
    (earlier : List Event) (last : Exchange) (s : Session (Traced World)) : Prop
    extends After serde client context invocation parameters base cache (earlier ++ [Event.asked last]) s
    where
  left : (exchanges earlier).length + left ≤ client.policy.maximumInputRounds
  reply : last.reply = reply
  inputs : inputs = totalInputs earlier
  bytes : bytes = totalBytes serde earlier

theorem After.mono {rounds : List Event} {s s' : Session (Traced World)}
    (h : After serde client context invocation parameters base cache rounds s)
    (htrace : s'.trace = s.trace) (hcache : ∀ k e, s'.cache.Has k e → s.cache.Has k e) :
    After serde client context invocation parameters base cache rounds s' :=
  ⟨htrace.trans h.trace, h.disciplined, fun k e he => h.checked k e (hcache k e he)⟩

variable (serde client context invocation parameters base cache) in
/-- The invocation returned a value that satisfies its output schema. -/
def Returned (outcome : Outcome) (s : Session (Traced World)) : Prop :=
  Orderly serde client context invocation parameters base cache s ∧
    invocation.output outcome.value = .ok ()

theorem complete_spec (endpoint : EndpointIdentity) (discovery : Discovery) (reply : Json) :
    Effect.Triple (Orderly serde client context invocation parameters base cache)
      (client.traced.complete serde capacity invocation endpoint discovery parameters
        context.traced reply)
      (Returned serde client context invocation parameters base cache)
      (Orderly serde client context invocation parameters base cache) := by
  refine .bind (Q := fun _ => Orderly serde client context invocation parameters base cache)
    (.ofExcept (fun _ _ h _ => h) fun _ h => h) fun (value, ttlMs) => ?_
  refine .bind (Q := fun _ s => Orderly serde client context invocation parameters base cache s ∧
    invocation.output value = .ok ()) (.ofExcept (fun _ _ h houtput => ⟨h, houtput⟩) fun _ h => h)
    fun _ => ?_
  refine .bind (Q := fun _ s => Orderly serde client context invocation parameters base cache s ∧
    invocation.output value = .ok ()) (.modify ?_) fun _ => ?_
  · rintro s ⟨⟨rounds, h⟩, houtput⟩
    exact ⟨⟨rounds, h.mono rfl fun _ _ h => h⟩, houtput⟩
  have hend : Effect.Triple
      (fun s => Orderly serde client context invocation parameters base cache s ∧
        invocation.output value = .ok ()) (do
        client.traced.record invocation.method "complete"
        return (⟨value, ttlMs⟩ : Outcome))
      (Returned serde client context invocation parameters base cache)
      (Orderly serde client context invocation parameters base cache) := by
    rintro s ⟨⟨rounds, h⟩, houtput⟩
    exact ⟨⟨rounds, h.mono rfl fun _ _ h => h⟩, houtput⟩
  dsimp only
  split
  · refine .bind (.modify ?_) fun _ => hend
    rintro s ⟨⟨rounds, h⟩, houtput⟩
    refine ⟨⟨rounds, h.trace, h.disciplined, fun k e he => ?_⟩, houtput⟩
    rcases MemoryState.put_spec he with ⟨-, rfl⟩ | he
    · exact .inr houtput
    · exact h.checked k e he
  · exact hend

theorem acquireInputs_spec (requestState : Json) (requested : List (String × String))
    (left inputs bytes : Nat) :
    Effect.Triple (fun s => ∃ earlier last, Replied serde client context invocation parameters base
        cache (left + 1) (.ok (.inputRequired requestState requested)) inputs bytes earlier last s)
      (client.traced.acquireInputs serde invocation context.traced requestState requested inputs
        bytes)
      (fun (params, inputs, bytes) s => ∃ rounds, Ready serde client context invocation parameters
        base cache left params inputs bytes rounds s)
      (Orderly serde client context invocation parameters base cache) := by
  have horderly : ∀ s, (∃ earlier last, Replied serde client context invocation parameters base
      cache (left + 1) (.ok (.inputRequired requestState requested)) inputs bytes earlier last s) →
      Orderly serde client context invocation parameters base cache s :=
    fun s ⟨_, _, h⟩ => ⟨_, h.toAfter⟩
  unfold Client.acquireInputs
  dsimp only
  split
  · exact fun s h => horderly s h
  rename_i hdeclared
  split
  · exact fun s h => horderly s h
  have hacquired : ∀ {earlier : List Event} {last : Exchange} {s : Session (Traced World)}
      {answer : Except ClientError (List (String × Json))} {world : World},
      Replied serde client context invocation parameters base cache (left + 1)
        (.ok (.inputRequired requestState requested)) inputs bytes earlier last s →
      After serde client context invocation parameters base cache
        (earlier ++ [Event.asked last] ++ [Event.acquired requested requestState answer])
        { s with world := (world, s.trace ++ [Event.acquired requested requestState answer]) } := by
    intro earlier last s answer world h
    refine ⟨?_, h.disciplined.acquired (not_not.mp hdeclared), h.checked⟩
    show s.trace ++ _ = _
    rw [h.trace, List.append_assoc]
  refine .bind (Q := fun acquired s => ∃ (earlier : List Event) (last : Exchange), After serde client context invocation
    parameters base cache
      (earlier ++ [Event.asked last] ++ [Event.acquired requested requestState (.ok acquired)]) s ∧
    (exchanges earlier).length + (left + 1) ≤ client.policy.maximumInputRounds ∧
    last.reply = .ok (.inputRequired requestState requested) ∧
    inputs = totalInputs earlier ∧ bytes = totalBytes serde earlier) ?_ fun acquired => ?_
  · rintro s ⟨earlier, last, h⟩
    unfold Effect.focus
    cases hanswer : (client.traced.host.acquire requested requestState
        (context.traced.deadlineMs - context.traced.nowMs) s.world).1 with
    | ok acquired =>
      exact ⟨earlier, last, hanswer ▸ hacquired h, h.left, h.reply, h.inputs, h.bytes⟩
    | error e => exact ⟨_, hacquired h⟩
  · split
    · rintro s ⟨earlier, last, h, -⟩
      exact ⟨_, h⟩
    · rename_i hwithin
      rintro s ⟨earlier, last, h, hleft, hreply, rfl, rfl⟩
      rw [not_or, Nat.not_lt, Nat.not_lt] at hwithin
      have hinputs : totalInputs (earlier ++ [Event.asked last] ++
          [Event.acquired requested requestState (.ok acquired)]) =
          totalInputs earlier + acquired.length := by
        rw [List.append_assoc, totalInputs_append]
        rfl
      have hbytes : totalBytes serde (earlier ++ [Event.asked last] ++
          [Event.acquired requested requestState (.ok acquired)]) =
          totalBytes serde earlier + (Text.utf8 (serde.toText (.object acquired))).length := by
        rw [List.append_assoc, totalBytes_append]
        rfl
      refine ⟨_, ⟨h.mono rfl fun _ _ h => h, ?_, ?_, hinputs.symm, hbytes.symm⟩⟩
      · rw [List.append_assoc, exchanges_append, List.length_append]
        show _ + 1 + _ ≤ _
        omega
      · refine .inr ⟨earlier, last, requestState, requested, acquired, ?_, hreply, rfl, ?_, ?_⟩
        · rw [List.append_assoc]
          rfl
        · exact hinputs ▸ hwithin.1
        · exact hbytes ▸ hwithin.2

theorem request_spec (era : Era) {left : Nat} {params : Json} {inputs bytes deadlineMs : Nat}
    {E : Session (Traced World) → Prop} :
    Effect.Triple
      (fun s => ∃ rounds, Ready serde client context invocation parameters base cache left params
        inputs bytes rounds s)
      (client.traced.request era invocation.method params deadlineMs)
      (fun reply s => ∃ earlier last, Replied serde client context invocation parameters base cache
        left reply inputs bytes earlier last s) E := by
  rintro s ⟨rounds, h⟩
  obtain ⟨e, reply, s', hrequest, hreply, -, htrace, -, hcache, -, hmethod, hparams⟩ :=
    @request_trace _ client era invocation.method params deadlineMs s
  rw [hrequest]
  refine ⟨rounds, e, ⟨⟨?_, ?_, ?_⟩, h.left, hreply, h.inputs, h.bytes⟩⟩
  · rw [htrace, h.trace, List.append_assoc]
  · exact h.disciplined.asked (le_trans (Nat.le_add_right _ _) h.left) hmethod
      (hparams ▸ h.justified)
  · exact hcache ▸ h.checked

theorem turn_spec {endpoint : EndpointIdentity} {discovery : Discovery} {left : Nat} {params : Json}
    {inputs bytes : Nat} {more : Json → List (String × String) → Call (Traced World) Outcome}
    (hmore : ∀ requestState requested, Effect.Triple
      (fun s => ∃ earlier last, Replied serde client context invocation parameters base cache left
        (.ok (.inputRequired requestState requested)) inputs bytes earlier last s)
      (more requestState requested)
      (Returned serde client context invocation parameters base cache)
      (Orderly serde client context invocation parameters base cache)) :
    Effect.Triple
      (fun s => ∃ rounds, Ready serde client context invocation parameters base cache left params
        inputs bytes rounds s)
      (client.traced.turn serde capacity invocation endpoint discovery parameters context.traced
        params more)
      (Returned serde client context invocation parameters base cache)
      (Orderly serde client context invocation parameters base cache) := by
  refine .bind (.observe (fun _ _ h _ => h) fun _ ⟨_, h⟩ => ⟨_, h.toAfter⟩) fun _ =>
    .bind (request_spec _) fun reply => ?_
  have horderly : ∀ s, (∃ earlier last, Replied serde client context invocation parameters base
      cache left reply inputs bytes earlier last s) →
      Orderly serde client context invocation parameters base cache s :=
    fun s ⟨_, _, h⟩ => ⟨_, h.toAfter⟩
  have hforget : ∀ error, Effect.Triple
      (Orderly serde client context invocation parameters base cache)
      (do client.traced.invalidate; .fail error : Call (Traced World) Outcome)
      (Returned serde client context invocation parameters base cache)
      (Orderly serde client context invocation parameters base cache) :=
    fun error s ⟨rounds, h⟩ => ⟨rounds, h.mono rfl fun _ _ h => MemoryState.clearEndpoint_spec h⟩
  rcases reply with error | reply
  · cases error with
    | incompatible | processExited =>
      exact (hforget _).weaken horderly (fun _ _ h => h) fun _ h => h
    | timeout | http | rpc | cancelled => exact .fail horderly
  · cases reply with
    | complete => exact (complete_spec _ _ _).weaken horderly (fun _ _ h => h) fun _ h => h
    | inputRequired => exact hmore _ _
    | stream => exact (hforget _).weaken horderly (fun _ _ h => h) fun _ h => h

theorem exchange_spec (endpoint : EndpointIdentity) (discovery : Discovery) (left : Nat)
    (params : Json) (inputs bytes : Nat) :
    Effect.Triple
      (fun s => ∃ rounds, Ready serde client context invocation parameters base cache left params
        inputs bytes rounds s)
      (client.traced.exchange serde capacity invocation endpoint discovery parameters
        context.traced left params inputs bytes)
      (Returned serde client context invocation parameters base cache)
      (Orderly serde client context invocation parameters base cache) := by
  induction left generalizing params inputs bytes with
  | zero => exact turn_spec fun _ _ => .fail fun _ ⟨_, _, h⟩ => ⟨_, h.toAfter⟩
  | succ left ih =>
    refine turn_spec fun requestState requested => ?_
    split
    · exact .fail fun _ ⟨_, _, h⟩ => ⟨_, h.toAfter⟩
    · exact .bind (acquireInputs_spec _ _ _ _ _) fun (params, inputs, bytes) =>
        ih params inputs bytes

theorem answer_spec (endpoint : EndpointIdentity) (discovery : Discovery) :
    Effect.Triple (After serde client context invocation parameters base cache [])
      (client.traced.answer serde capacity invocation parameters context.traced endpoint discovery)
      (Returned serde client context invocation parameters base cache)
      (Orderly serde client context invocation parameters base cache) := by
  refine .bind (Q := fun _ => After serde client context invocation parameters base cache []) ?_
    fun hit => ?_
  · intro s h
    unfold lookup
    by_cases hmay : invocation.mayCache = true
    · rw [if_pos hmay]
      exact h.mono rfl MemoryState.get_spec.2
    · rw [if_neg hmay]
      exact h
  cases hit with
  | none =>
    refine .bind (Q := fun _ => After serde client context invocation parameters base cache [])
      (.modify fun s h => h.mono rfl fun _ _ h => h) fun _ => ?_
    refine (exchange_spec endpoint discovery client.policy.maximumInputRounds parameters.1 0
      0).weaken (fun s h => ⟨[], h, ?_, .inl ⟨rfl, rfl⟩, rfl, rfl⟩) (fun _ _ h => h) fun _ h => h
    exact le_of_eq (Nat.zero_add _)
  | some value =>
    refine .bind (Q := fun _ s => After serde client context invocation parameters base cache [] s ∧
      invocation.output value = .ok ()) (.ofExcept (fun _ _ h houtput => ⟨h, houtput⟩)
        fun _ h => ⟨_, h⟩) fun _ => ?_
    rintro s ⟨h, houtput⟩
    exact ⟨⟨[], h.mono rfl fun _ _ h => h⟩, houtput⟩

/-! ## Discovery -/

/-- At most `n` requests were made for a discovery, and nothing else is noted. -/
def Probes (base : List Event) (n : Nat) (s : Session (Traced World)) : Prop :=
  ∃ probes : List Exchange, s.trace = base ++ probes.map .asked ∧ probes.length ≤ n ∧
    ∀ e ∈ probes, e.method ∈ ["server/discover", "initialize"]

theorem Probes.mono {n m : Nat} {s s' : Session (Traced World)} (h : Probes base n s) (hle : n ≤ m)
    (htrace : s'.trace = s.trace) : Probes base m s' := by
  obtain ⟨probes, hprobes, hlength, hmethod⟩ := h
  exact ⟨probes, htrace.trans hprobes, le_trans hlength hle, hmethod⟩

theorem Probes.request (era : Era) {method : String} (params : Json) (deadlineMs : Nat) {n : Nat}
    {E : Session (Traced World) → Prop} (hmethod : method ∈ ["server/discover", "initialize"]) :
    Effect.Triple (Probes base n) (client.traced.request era method params deadlineMs)
      (fun _ => Probes base (n + 1)) E := by
  rintro s ⟨probes, hprobes, hlength, hmethods⟩
  obtain ⟨e, reply, s', hrequest, -, -, htrace, -, -, -, rfl, -⟩ :=
    @request_trace _ client era method params deadlineMs s
  rw [hrequest]
  refine ⟨probes ++ [e], ?_, ?_, fun e' he' => ?_⟩
  · rw [htrace, hprobes, List.append_assoc, List.map_append]
    rfl
  · rw [List.length_append]
    exact Nat.succ_le_succ hlength
  · rcases List.mem_append.mp he' with he' | he'
    · exact hmethods e' he'
    · cases List.mem_singleton.mp he'
      exact hmethod

theorem discover_probes_only :
    Effect.Triple (Probes base 0) (client.traced.discover serde packageVersion context.traced)
      (fun _ => Probes base 2) (Probes base 2) := by
  have hkeep : ∀ {n m : Nat}, n ≤ m → ∀ s : Session (Traced World), Probes base n s →
      Probes base m s := fun hle s h => h.mono hle rfl
  have hincompatible : ∀ {n : Nat} (message : String), n ≤ 2 → Effect.Triple (Probes base n)
      (client.traced.incompatible message : Call (Traced World) Discovery)
      (fun _ => Probes base 2) (Probes base 2) := fun message hle s h => h.mono hle rfl
  have hparse : ∀ {n : Nat} (x : Except ClientError Discovery), n ≤ 2 →
      Effect.Triple (Probes base n) (.ofExcept x) (fun _ => Probes base 2) (Probes base 2) :=
    fun x hle => .ofExcept (fun s _ h _ => hkeep hle s h) (hkeep hle)
  refine .bind (.observe (fun _ _ h _ => h) (hkeep (by omega))) fun _ =>
    .bind (Q := fun _ => Probes base 0) (.get fun _ h => h) fun t => ?_
  split
  · exact .pure (hkeep (by omega))
  refine .bind (Q := fun _ => Probes base 2) (.bind (Q := fun _ => Probes base 0)
    (.modify fun s h => h.mono (le_refl 0) rfl) fun _ =>
      .bind (Probes.request _ _ _ (by decide)) fun reply => ?_) fun discovery =>
    .bind (Q := fun _ => Probes base 2) (.modify fun s h => h.mono (le_refl 2) rfl) fun _ =>
      .pure fun _ h => h
  rcases reply with error | reply
  · dsimp only
    split
    · refine .bind (Q := fun _ => Probes base 1) (.modify fun s h => h.mono (le_refl 1) rfl)
        fun _ => .bind (Probes.request _ _ _ (by decide)) fun reply => ?_
      rcases reply with error | reply
      · exact .fail fun _ h => h
      · cases reply with
        | complete => exact hparse _ (le_refl 2)
        | inputRequired | stream => exact hincompatible _ (le_refl 2)
    · cases error with
      | processExited =>
        exact .bind (Q := fun _ => Probes base 2)
          (.modify fun s h => h.mono (by omega) rfl) fun _ => .fail fun _ h => h
      | timeout | http | rpc | incompatible | cancelled => exact .fail (hkeep (by omega))
  · cases reply with
    | complete => exact hparse _ (by omega)
    | inputRequired | stream => exact hincompatible _ (by omega)

/-! ## Ids -/

/-- The ids that a client asked under rise, and the next is above them. -/
def Numbered (s : Session (Traced World)) : Prop :=
  ((exchanges s.trace).map (·.id)).Pairwise (· < ·) ∧ ∀ e ∈ exchanges s.trace, e.id < s.nextId

theorem Step.numbered {s s' : Session (Traced World)} (h : Step s s') (hnumbered : Numbered s) :
    Numbered s' := by
  obtain ⟨hrise, hbelow⟩ := hnumbered
  cases h with
  | asked e hid htrace hnext =>
    have hexchanges : exchanges s'.trace = exchanges s.trace ++ [e] := by
      rw [htrace, exchanges_append]
      rfl
    refine ⟨?_, ?_⟩
    · rw [hexchanges, List.map_append, List.pairwise_append]
      refine ⟨hrise, List.pairwise_singleton _ _, ?_⟩
      intro id hmem id' hmem'
      obtain ⟨e', he', rfl⟩ := List.mem_map.mp hmem
      cases List.mem_singleton.mp hmem'
      show e'.id < e.id
      rw [hid]
      exact hbelow e' he'
    · rw [hexchanges, hnext]
      intro e' he'
      rcases List.mem_append.mp he' with he' | he'
      · exact Nat.lt_succ_of_lt (hbelow e' he')
      · cases List.mem_singleton.mp he'
        exact hid ▸ Nat.lt_succ_self _
  | acquired requested requestState inputs htrace hnext =>
    have hexchanges : exchanges s'.trace = exchanges s.trace := by
      rw [htrace, exchanges_append]
      exact List.append_nil _
    exact ⟨hexchanges ▸ hrise, hexchanges ▸ hnext ▸ hbelow⟩
  | silent htrace hnext => exact ⟨htrace ▸ hrise, htrace ▸ hnext ▸ hbelow⟩

theorem Steps.numbered {s s' : Session (Traced World)} (h : Steps s s') (hnumbered : Numbered s) :
    Numbered s' := by
  induction h with
  | refl => exact hnumbered
  | tail _ hstep ih => exact hstep.numbered ih

/-! ## Runs of a client -/

variable (serde packageVersion capacity api client) in
/-- The states that the operations of a client reach. Between them the world and the shared cache
change as they like. -/
inductive Client.Reached : Session (Traced World) → Prop
  | start (world : World) (cache : MemoryState) (served : List Served) :
    Reached ⟨(world, []), none, 1, cache, served⟩
  | elapsed (h : Reached s) (world : World) (cache : MemoryState) (served : List Served) :
    Reached { s with world := (world, s.trace), cache, served }
  | called (h : Reached s) (operation : Operation) (context : CallContext World) :
    Reached (client.traced.after serde packageVersion capacity api operation context.traced s)

theorem Client.Reached.numbered {s : Session (Traced World)}
    (h : client.Reached serde packageVersion capacity api s) : Numbered s := by
  induction h with
  | start => exact ⟨.nil, List.forall_mem_nil _⟩
  | elapsed _ _ _ _ ih => exact ih
  | called _ operation context ih => exact (steps_after client context operation _).numbered ih

/-- The state in which an invocation has discovered, or has failed before that. -/
def Client.discovered (serde : Serde) (packageVersion : String) (client : Client World)
    (invocation : Invocation) (parameters : Value) (context : CallContext World)
    (s : Session World) : Session World :=
  ((do
    .ofExcept (invocation.input parameters.1)
    client.discover serde packageVersion context : Call World Discovery) s).2

theorem discovered_probes (s : Session (Traced World)) : Probes s.trace 2
    (client.traced.discovered serde packageVersion invocation parameters context.traced s) := by
  have hstart : Probes s.trace 0 s := ⟨[], (List.append_nil _).symm, le_refl 0, List.forall_mem_nil _⟩
  unfold Client.discovered
  cases invocation.input parameters.1 with
  | error => exact hstart.mono (by omega) rfl
  | ok => exact discover_probes_only.final hstart

theorem invoke_orderly (s : Session (Traced World)) :
    let s₁ := client.traced.discovered serde packageVersion invocation parameters context.traced s
    match client.traced.invoke serde packageVersion capacity invocation parameters
      context.traced s with
    | (.ok outcome, s') =>
      Returned serde client context invocation parameters s₁.trace s.cache outcome s'
    | (.error _, s') => Orderly serde client context invocation parameters s₁.trace s.cache s' := by
  have hstart : ∀ {s₁ : Session (Traced World)}, (∀ k e, s₁.cache.Has k e → s.cache.Has k e) →
      After serde client context invocation parameters s₁.trace s.cache [] s₁ := fun hrows =>
    ⟨(List.append_nil _).symm, .nil, fun k e he => .inl (hrows k e he)⟩
  unfold Client.discovered Client.invoke
  cases hinput : invocation.input parameters.1 with
  | error e => exact ⟨[], hstart fun _ _ h => h⟩
  | ok =>
    have hkeeps := @Keeps.discover _ serde packageVersion client.traced context.traced s.cache
      s.served s ⟨rfl, fun _ _ h => h⟩
    rw [Effect.bind_apply, Effect.bind_apply, Effect.ofExcept_apply]
    dsimp only
    rw [Effect.bind_apply]
    rcases hdiscover : client.traced.discover serde packageVersion context.traced s with
      ⟨e | discovery, s₁⟩
    · rw [hdiscover] at hkeeps
      exact ⟨[], hstart hkeeps.rows⟩
    · rw [hdiscover] at hkeeps
      have hanswer := @answer_spec World serde capacity client context invocation parameters
        s₁.trace s.cache (client.host.endpoint s₁.world.1) discovery s₁ (hstart hkeeps.rows)
      show match client.traced.answer serde capacity invocation parameters context.traced
          (client.host.endpoint s₁.world.1) discovery s₁ with
        | (.ok outcome, s') => _
        | (.error _, s') => _
      generalize client.traced.answer serde capacity invocation parameters context.traced
        (client.host.endpoint s₁.world.1) discovery s₁ = result at hanswer
      obtain ⟨e | outcome, s'⟩ := result
      · exact hanswer
      · exact hanswer

/-- Whatever a peer and a broker answer, an invocation asks a bounded number of times, for declared
inputs, within the policy, under ids of its own, and gives out and keeps only what satisfies the
output schema. -/
theorem invoke_bounded (client : Client World) (s : Session (Traced World))
    (h : client.Reached serde packageVersion capacity api s) (invocation : Invocation)
    (parameters : Value) (context : CallContext World) :
    let s₁ := client.traced.discovered serde packageVersion invocation parameters context.traced s
    let (out, s') := client.traced.invoke serde packageVersion capacity invocation parameters
      context.traced s
    Probes s.trace 2 s₁ ∧
    (∃ rounds, s'.trace = s₁.trace ++ rounds ∧ Disciplined serde client.policy invocation.method
      context.inputCapabilities parameters.1 rounds) ∧
    ((exchanges s'.trace).map (·.id)).Nodup ∧
    (∀ outcome, out = .ok outcome → invocation.output outcome.value = .ok ()) ∧
    Checked invocation s.cache s'.cache := by
  have horderly := @invoke_orderly World serde packageVersion capacity client context invocation
    parameters s
  have hnumbered := (h.called (.invoke invocation parameters) context).numbered
  dsimp only [Client.after] at hnumbered
  dsimp only at horderly ⊢
  refine ⟨discovered_probes s, ?_⟩
  generalize client.traced.invoke serde packageVersion capacity invocation parameters
    context.traced s = result at horderly hnumbered ⊢
  obtain ⟨out, s'⟩ := result
  have hids : ((exchanges s'.trace).map (·.id)).Nodup := hnumbered.1.imp Nat.ne_of_lt
  cases out with
  | ok outcome =>
    obtain ⟨⟨rounds, hrounds⟩, houtput⟩ := horderly
    refine ⟨⟨rounds, hrounds.trace, hrounds.disciplined⟩, hids, ?_, hrounds.checked⟩
    rintro _ ⟨⟩
    exact houtput
  | error e =>
    obtain ⟨rounds, hrounds⟩ := horderly
    exact ⟨⟨rounds, hrounds.trace, hrounds.disciplined⟩, hids, nofun, hrounds.checked⟩

end

namespace RoundSample

def serde : Serde := ⟨fun _ => .error "", fun _ => [], fun _ => "\x7b\x7d"⟩

def api : CardApi := ⟨⟨8, 4096⟩, fun _ _ _ => .ok fun _ => .ok ()⟩

def server : Json := .object [("resultType", .string "complete"),
  ("supportedVersions", .array [.string "2025-06-18"]),
  ("serverInfo", .object [("name", .string "notes"), ("version", .string "1")])]

/-- A server that demands one input before it completes. -/
def client : Client Unit where
  host := {
    endpoint := fun _ => .processInstance "1"
    bindingKind := "stdio"
    request := fun _ id method _ _ => pure (
      if method = "server/discover" then .complete server
      else if id = 2 then .inputRequired (.string "s") [("name", "elicitation")]
      else .complete (.object []))
    acquire := fun _ _ _ => pure [("name", .string "alice")]
    record := fun _ _ _ world => world }
  policy := ⟨60000, 60000, 1, 100, 1⟩

def context : CallContext Unit := ⟨"alice", ["elicitation"], none, 1000, 0, fun _ => false⟩

def tool : Invocation := .ofCard "greet" .tool (fun _ => .ok ()) (fun _ => .ok ()) none none

theorem parameters_valid : (Json.object []).Numeric ∧ Distinct (.object []) := ⟨trivial, .nil, trivial⟩

def parameters : Value := ⟨.object [], parameters_valid⟩

def start : Session (Traced Unit) := ⟨((), []), none, 1, .empty, []⟩

end RoundSample

open RoundSample in
/-- The second request carries the state of the demand and the input. -/
theorem invoke_bounded_greet :
    ∃ rounds, (client.traced.invoke serde "0.1.0" 8 tool parameters context.traced start).2.trace =
        (client.traced.discovered serde "0.1.0" tool parameters context.traced start).trace ++
          rounds ∧
      Disciplined serde client.policy "tools/call" ["elicitation"] (.object []) rounds ∧
      (exchanges rounds).map (·.params) = [.object [], .object [("inputs", .object [("name",
        .string "alice")]), ("requestState", .string "s")]] := by
  obtain ⟨-, ⟨rounds, htrace, hdisciplined⟩, -⟩ := invoke_bounded client start
    (.start () .empty [] : client.Reached serde "0.1.0" 8 api start) tool parameters context
  refine ⟨rounds, htrace, hdisciplined, ?_⟩
  have hrounds : _ = rounds := List.append_cancel_left (Eq.trans (by rfl) htrace)
  rw [← hrounds]
  rfl

end SimAgentNet.McpClient
