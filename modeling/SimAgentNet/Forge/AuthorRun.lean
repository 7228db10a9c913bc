import SimAgentNet.Forge.AuthorLoop

/-! # Runs of the author loop

What holds of the calls of a run and of what it reports, whatever the targets answer. The forms that
are realized stay below the ceiling as far as the guard looks. -/

namespace SimAgentNet.Forge
open Bridge (Error)

variable {Mode Shape Cx Value Response Verifier Event Cassette : Type}

/-! ## Answers -/

section Answer
variable (shop : Workshop Mode Shape Cx Value Response Verifier Event Cassette)
  (task : AuthorTask Mode Shape) (verifiers : Symbol → Option Verifier)

/-- A verifier of the catalog passed the answer. -/
def VerifiedBy (answer : Expr Mode) (id : Symbol) : Prop :=
  ∃ verifier, verifiers id = some verifier ∧
    ∃ cx cx', shop.runVerifier verifier answer cx = (.ok (.ok ()), cx')

/-- The answer was found to have the return shape, and every verifier of the task passed it. -/
structure AnswerChecked (answer : Expr Mode) : Prop where
  shape : ∃ cx cx' matched, shop.checkExpr task.returnShape answer cx = (.ok matched, cx') ∧
    matched.accepted = true
  verified : ∀ id ∈ task.verifiers, VerifiedBy shop verifiers answer id

variable {shop task verifiers} {policy : RoutePolicy Mode Cx Value Verifier} {answer : Expr Mode}

theorem onCx_eq_ok {failing : String} {x : Effect Error Cx α} {s s' : Authoring Mode Cx}
    (h : onCx shop failing x s = (.ok a, s')) : x s.cx = (.ok a, s'.cx) := by
  obtain ⟨hx, hs⟩ := Prod.mk.inj (Effect.mapError_eq_ok_iff.mp h)
  rw [← hs]
  exact Prod.ext hx rfl

theorem verifyOne_ok {id : Symbol}
    (h : verifyOne shop verifiers answer id cx = (.ok (.ok ()), cx')) :
    VerifiedBy shop verifiers answer id := by
  unfold verifyOne at h
  cases hfind : verifiers id with
  | none =>
    rw [hfind] at h
    cases h
  | some verifier =>
    rw [hfind] at h
    exact ⟨verifier, hfind, cx, cx', h⟩

/-- A report that is accepted was accepted before, and all verifiers asked passed the answer. -/
theorem verifyVerifiers_accepted {ids : List Symbol} {report report' : VerifyReport}
    (h : verifyVerifiers shop verifiers answer report ids cx = (.ok report', cx'))
    (haccepted : report'.accepted = true) :
    report.accepted = true ∧ ∀ id ∈ ids, VerifiedBy shop verifiers answer id := by
  induction ids generalizing report cx with
  | nil =>
    cases h
    exact ⟨haccepted, nofun⟩
  | cons id ids ih =>
    obtain ⟨verdict, cx₁, hone, hrest⟩ := Effect.bind_eq_ok_iff.mp h
    obtain ⟨hreport, hids⟩ := ih hrest
    cases verdict with
    | ok _ => exact ⟨hreport, List.forall_mem_cons.mpr ⟨verifyOne_ok hone, hids⟩⟩
    | error reason => simp [VerifyReport.add, VerifyReport.accepted] at hreport

theorem checkRealized_eq_ok {s s' : Authoring Mode Cx}
    (h : checkRealized shop task policy answer s = (.ok (), s')) :
    AnswerChecked shop task policy.verifiers answer := by
  obtain ⟨matched, s₁, hshape, h₁⟩ := Effect.bind_eq_ok_iff.mp h
  split at h₁
  · next hmatched =>
    obtain ⟨report, s₂, hverify, h₂⟩ := Effect.bind_eq_ok_iff.mp h₁
    split at h₂
    · next haccepted =>
      exact ⟨⟨_, _, matched, onCx_eq_ok hshape, hmatched⟩,
        (verifyVerifiers_accepted (onCx_eq_ok hverify) haccepted).2⟩
    · cases h₂
  · cases h₁

end Answer

/-! ## Calls -/

/-- The operations leave the capabilities of the context as they were. -/
structure KeepsCapabilities (shop : Workshop Mode Shape Cx Value Response Verifier Event Cassette)
    (policy : RoutePolicy Mode Cx Value Verifier) : Prop where
  realize : ∀ target ∈ policy.ladder, ∀ request cx,
    shop.capabilities (target.realize request cx).2 = shop.capabilities cx
  withCapabilities : ∀ granted x cx,
    shop.capabilities (shop.withCapabilities granted x cx).2 = shop.capabilities cx
  asExpr : ∀ value cx, shop.capabilities (shop.asExpr value cx).2 = shop.capabilities cx
  decodeWithCodec : ∀ codec input cx,
    shop.capabilities (shop.decodeWithCodec codec input cx).2 = shop.capabilities cx
  checkExpr : ∀ shape expr cx,
    shop.capabilities (shop.checkExpr shape expr cx).2 = shop.capabilities cx
  runVerifier : ∀ verifier answer cx,
    shop.capabilities (shop.runVerifier verifier answer cx).2 = shop.capabilities cx

section Calls
variable (shop : Workshop Mode Shape Cx Value Response Verifier Event Cassette)
  (policy : RoutePolicy Mode Cx Value Verifier) (ceiling : List Symbol) (caller : Cx)

/-- The target at the place needs no capability beyond the ceiling. -/
def TargetAllowed (place : Nat) : Prop :=
  ∀ target, policy.ladder[place]? = some target →
    ∀ required ∈ target.requiredCapabilities, capabilityAllowed required ceiling = true

/-- A call of a target that the ceiling allows; to realize a form, a call behind the guard, under
capabilities of the context and of the ceiling. -/
def InvocationAllowed : Invocation Mode → Prop
  | .author place => TargetAllowed policy ceiling place
  | .realize place form current granted => TargetAllowed policy ceiling place ∧
    outsideCeiling (requiredCapabilitiesForForm form) ceiling = none ∧
    granted ⊆ current ∧ granted ⊆ ceilingNames ceiling ∧
    (KeepsCapabilities shop policy → current = shop.capabilities caller)

/-- The state of a run: the calls so far are allowed, and the context has its capabilities. -/
structure Proper (s : Authoring Mode Cx) : Prop where
  kept : KeepsCapabilities shop policy → shop.capabilities s.cx = shop.capabilities caller
  log : ∀ invocation ∈ s.log, InvocationAllowed shop policy ceiling caller invocation

/-- An operation of the context that leaves its capabilities as they were, if the others do. -/
def Keeping (x : Effect Error Cx α) : Prop :=
  KeepsCapabilities shop policy → ∀ cx, shop.capabilities (x cx).2 = shop.capabilities cx

end Calls

section Steps
variable {shop : Workshop Mode Shape Cx Value Response Verifier Event Cassette}
  {task : AuthorTask Mode Shape} {policy : RoutePolicy Mode Cx Value Verifier}
  {ceiling : List Symbol} {caller : Cx}

theorem Keeping.bind {x : Effect Error Cx α} {f : α → Effect Error Cx β}
    (hx : Keeping shop policy x) (hf : ∀ a, Keeping shop policy (f a)) :
    Keeping shop policy (x >>= f) := by
  intro hkeeps cx
  have hfirst := hx hkeeps cx
  rw [Effect.bind_apply]
  rcases hrun : x cx with ⟨e | a, cx₁⟩
  · rw [hrun] at hfirst
    exact hfirst
  · rw [hrun] at hfirst
    exact (hf a hkeeps cx₁).trans hfirst

theorem Keeping.ofExcept {x : Except Error α} : Keeping shop policy (.ofExcept x) :=
  fun _ _ => rfl

theorem Keeping.pure {a : α} : Keeping shop policy (pure a) := fun _ _ => rfl

theorem decodeModelResponse_keeping {reply : EvalReply Value} :
    Keeping shop policy (decodeModelResponse shop reply) :=
  .bind (fun hkeeps => hkeeps.asExpr _) fun _ => .ofExcept

theorem decodeTerminalForm_keeping {response : Response} :
    Keeping shop policy (decodeTerminalForm shop task response) := by
  refine .bind .ofExcept fun input => ?_
  refine .bind (fun hkeeps => hkeeps.decodeWithCodec _ _) fun decoded => ?_
  refine .bind (fun hkeeps => hkeeps.checkExpr _ _) fun matched => ?_
  split
  · exact .pure
  · exact fun _ _ => rfl

theorem verifyVerifiers_keeping {verifiers : Symbol → Option Verifier} {answer : Expr Mode}
    {ids : List Symbol} {report : VerifyReport} :
    Keeping shop policy (verifyVerifiers shop verifiers answer report ids) := by
  induction ids generalizing report with
  | nil => exact .pure
  | cons id ids ih =>
    refine .bind ?_ fun verdict => ih
    unfold verifyOne
    split
    · exact fun hkeeps => hkeeps.runVerifier _ _
    · exact .pure

theorem onCx_proper {failing : String} {x : Effect Error Cx α} (hx : Keeping shop policy x) :
    Effect.Triple (Proper shop policy ceiling caller) (onCx shop failing x)
      (fun _ => Proper shop policy ceiling caller) (Proper shop policy ceiling caller) := by
  refine .mapError fun s hs => ?_
  have hproper : Proper shop policy ceiling caller { s with cx := (x s.cx).2 } :=
    ⟨fun hkeeps => (hx hkeeps s.cx).trans (hs.kept hkeeps), hs.log⟩
  split
  · next hrun => exact (Prod.mk.inj hrun).2 ▸ hproper
  · next hrun => exact (Prod.mk.inj hrun).2 ▸ hproper

theorem note_proper {invocation : Invocation Mode} {E : Authoring Mode Cx → Prop}
    {P : Authoring Mode Cx → Prop}
    (h : ∀ s, P s → Proper shop policy ceiling caller s ∧
      InvocationAllowed shop policy ceiling caller invocation) :
    Effect.Triple P (note invocation : Effect ε (Authoring Mode Cx) Unit)
      (fun _ => Proper shop policy ceiling caller) E := by
  refine .modify fun s hs => ?_
  obtain ⟨hproper, hallowed⟩ := h s hs
  exact ⟨hproper.kept,
    List.forall_mem_append.mpr ⟨hproper.log, List.forall_mem_singleton.mpr hallowed⟩⟩

theorem checkRealized_proper {realized : Expr Mode} :
    Effect.Triple (Proper shop policy ceiling caller) (checkRealized shop task policy realized)
      (fun _ => Proper shop policy ceiling caller) (Proper shop policy ceiling caller) := by
  refine .bind (onCx_proper fun hkeeps => hkeeps.checkExpr _ _) fun matched => ?_
  split
  · refine .bind (onCx_proper verifyVerifiers_keeping) fun report => ?_
    split
    · exact .pure fun _ hs => hs
    · exact .fail fun _ hs => hs
  · exact .fail fun _ hs => hs

/-- What a realization that gets through has been found to be. -/
theorem realizeForm_proper {target : RouteTarget Mode Cx Value} {place : Nat} {form : Expr Mode}
    (htarget : TargetAllowed policy ceiling place)
    (hform : outsideCeiling (requiredCapabilitiesForForm form) ceiling = none) :
    Effect.Triple (Proper shop policy ceiling caller)
      (realizeForm shop task policy target place ceiling form)
      (fun accepted s => Proper shop policy ceiling caller s ∧
        AnswerChecked shop task policy.verifiers accepted.realized)
      (Proper shop policy ceiling caller) := by
  refine .bind (Q := fun state s => Proper shop policy ceiling caller s ∧ s = state)
    (.get fun s hs => ⟨hs, rfl⟩) fun state => ?_
  refine .bind (note_proper fun s hs => ⟨hs.1, htarget, hform, diminishedCapabilities_subset.1,
    diminishedCapabilities_subset.2, fun hkeeps => hs.2 ▸ hs.1.kept hkeeps⟩) fun _ => ?_
  refine .bind (onCx_proper fun hkeeps => hkeeps.withCapabilities _ _) fun reply => ?_
  refine .bind (onCx_proper fun hkeeps => hkeeps.asExpr _) fun realized => ?_
  refine .bind (checkRealized_proper.returns fun _ _ _ => checkRealized_eq_ok) fun _ => ?_
  exact .pure fun _ hs => hs

theorem runTargetOnce_proper {target : RouteTarget Mode Cx Value} {place : Nat}
    {modelRequest : Expr Mode} (hmem : target ∈ policy.ladder)
    (htarget : TargetAllowed policy ceiling place) :
    Effect.Triple (Proper shop policy ceiling caller)
      (runTargetOnce shop task policy target place modelRequest ceiling)
      (fun accepted s => Proper shop policy ceiling caller s ∧
        AnswerChecked shop task policy.verifiers accepted.realized)
      (Proper shop policy ceiling caller) := by
  refine .bind (note_proper fun s hs => ⟨hs, htarget⟩) fun _ => ?_
  refine .bind (onCx_proper fun hkeeps => hkeeps.realize target hmem _) fun reply => ?_
  refine .bind (onCx_proper decodeModelResponse_keeping) fun response => ?_
  refine .bind (onCx_proper decodeTerminalForm_keeping) fun form => ?_
  unfold guardForm
  cases hreason : outsideCeilingReason (requiredCapabilitiesForForm form) ceiling with
  | some reason => exact .fail fun _ hs => hs
  | none => exact realizeForm_proper htarget (Option.map_eq_none_iff.mp hreason)

/-! ## Runs -/

/-- A run that gets through ends with a checked answer. -/
abbrev Ends (shop : Workshop Mode Shape Cx Value Response Verifier Event Cassette)
    (task : AuthorTask Mode Shape) (policy : RoutePolicy Mode Cx Value Verifier) :
    Round (List RouteAttempt) (AcceptedAuthorRun Mode × List RouteAttempt) → Prop :=
  Round.Completes fun result => AnswerChecked shop task policy.verifiers result.1.realized

theorem authorStep_proper {target : RouteTarget Mode Cx Value} {place : Nat}
    {modelRequest : Expr Mode} (hmem : target ∈ policy.ladder)
    (htarget : TargetAllowed policy ceiling place) (attempts : List RouteAttempt) (k : Nat) :
    Effect.Triple (Proper shop policy ceiling caller)
      (authorStep shop task policy target place modelRequest ceiling attempts k)
      (fun r s => Proper shop policy ceiling caller s ∧ Ends shop task policy r)
      (Proper shop policy ceiling caller) := by
  refine .bind (runTargetOnce_proper hmem htarget).attempt fun result => ?_
  cases result with
  | ok accepted => exact .pure fun _ hs => hs
  | error reason => exact .pure fun _ hs => ⟨hs, trivial⟩

theorem targetSkipReason_eq_none {target : RouteTarget Mode Cx Value} :
    targetSkipReason target ceiling = none ↔
      ∀ required ∈ target.requiredCapabilities, capabilityAllowed required ceiling = true := by
  rw [targetSkipReason, Option.map_eq_none_iff, outsideCeiling_eq_none]

theorem runLadder_proper {modelRequest : Expr Mode} {targets : List (RouteTarget Mode Cx Value)}
    {place : Nat} {attempts : List RouteAttempt} (hladder : policy.ladder.drop place = targets) :
    Effect.Triple (Proper shop policy ceiling caller)
      (runLadder shop task policy modelRequest ceiling targets place attempts)
      (fun r s => Proper shop policy ceiling caller s ∧ Ends shop task policy r)
      (Proper shop policy ceiling caller) := by
  induction targets generalizing place attempts with
  | nil => exact .pure fun _ hs => ⟨hs, trivial⟩
  | cons target targets ih =>
    have hnext : policy.ladder.drop (place + 1) = targets := by
      rw [← List.tail_drop, hladder, List.tail_cons]
    have hget : policy.ladder[place]? = some target := by
      rw [← List.head?_drop, hladder, List.head?_cons]
    unfold runLadder
    cases hskip : targetSkipReason target ceiling with
    | some reason => exact ih hnext
    | none =>
      have htarget : TargetAllowed policy ceiling place := by
        intro target' htarget'
        cases hget.symm.trans htarget'
        exact targetSkipReason_eq_none.mp hskip
      refine .bind (.rounds (authorStep_proper (List.mem_of_getElem? hget) htarget) _ _ _)
        fun r => ?_
      cases r with
      | complete accepted => exact .pure fun _ hs => hs
      | again attempts =>
        exact (ih hnext).weaken (fun _ hs => hs.1) (fun _ _ hs => hs) fun _ hs => hs

/-! ## How often a target is asked -/

/-- The calls for a form that the target at the place has had. -/
def authored (place : Nat) (s : Authoring Mode Cx) : Nat := s.log.countP (·.authors place)

/-- The operation asks the target at the place at most `d` times. -/
def AsksAtMost (place d : Nat) (x : Effect ε (Authoring Mode Cx) α) : Prop :=
  ∀ n, Effect.Triple (fun s => authored place s ≤ n) x (fun _ s => authored place s ≤ n + d)
    fun s => authored place s ≤ n + d

theorem AsksAtMost.bind {place d d' : Nat} {x : Effect ε (Authoring Mode Cx) α}
    {f : α → Effect ε (Authoring Mode Cx) β} (hx : AsksAtMost place d x)
    (hf : ∀ a, AsksAtMost place d' (f a)) : AsksAtMost place (d + d') (x >>= f) := by
  intro n
  rw [← Nat.add_assoc]
  exact .bind ((hx n).weaken (fun _ hs => hs) (fun _ _ hs => hs) fun _ hs =>
    Nat.le_add_right_of_le hs) fun a => hf a (n + d)

/-- Only what comes first asks. -/
theorem AsksAtMost.first {place d : Nat} {x : Effect ε (Authoring Mode Cx) α}
    {f : α → Effect ε (Authoring Mode Cx) β} (hx : AsksAtMost place d x)
    (hf : ∀ a, AsksAtMost place 0 (f a)) : AsksAtMost place d (x >>= f) := hx.bind hf

/-- What comes first does not ask. -/
theorem AsksAtMost.after {place d : Nat} {x : Effect ε (Authoring Mode Cx) α}
    {f : α → Effect ε (Authoring Mode Cx) β} (hx : AsksAtMost place 0 x)
    (hf : ∀ a, AsksAtMost place d (f a)) : AsksAtMost place d (x >>= f) := by
  have hboth := hx.bind hf
  rwa [Nat.zero_add] at hboth

theorem AsksAtMost.mono {place d d' : Nat} {x : Effect ε (Authoring Mode Cx) α}
    (h : AsksAtMost place d x) (hd : d ≤ d') : AsksAtMost place d' x := fun n =>
  (h n).weaken (fun _ hs => hs) (fun _ _ hs => hs.trans (Nat.add_le_add_left hd n))
    fun _ hs => hs.trans (Nat.add_le_add_left hd n)

theorem AsksAtMost.pure {place : Nat} {a : α} :
    AsksAtMost place 0 (Pure.pure a : Effect ε (Authoring Mode Cx) α) :=
  fun _ => .pure fun _ hs => hs

theorem AsksAtMost.ofExcept {place : Nat} {x : Except ε α} :
    AsksAtMost place 0 (Effect.ofExcept x : Effect ε (Authoring Mode Cx) α) :=
  fun _ => .ofExcept (fun _ _ hs _ => hs) fun _ hs => hs

theorem AsksAtMost.fail {place : Nat} {e : ε} :
    AsksAtMost place 0 (Effect.fail e : Effect ε (Authoring Mode Cx) α) :=
  fun _ => .fail fun _ hs => hs

theorem onCx_asks {place : Nat} {failing : String} {x : Effect Error Cx α} :
    AsksAtMost place 0 (onCx shop failing x) := by
  intro n
  refine .mapError fun s hs => ?_
  split
  · next hrun => exact (Prod.mk.inj hrun).2 ▸ hs
  · next hrun => exact (Prod.mk.inj hrun).2 ▸ hs

theorem note_asks {place d : Nat} {invocation : Invocation Mode}
    (h : [invocation].countP (·.authors place) = d) :
    AsksAtMost place d (note invocation : Effect ε (Authoring Mode Cx) Unit) := by
  refine fun n => .modify fun s hs => ?_
  rw [authored, List.countP_append, h]
  exact Nat.add_le_add_right hs d

theorem guardForm_asks {target : RouteTarget Mode Cx Value} {place place' : Nat}
    {form : Expr Mode} :
    AsksAtMost place' 0 (guardForm shop task policy target place ceiling form) := by
  unfold guardForm
  split
  · exact .fail
  · refine .after (fun n => .get fun s hs => hs) fun state => ?_
    refine .after (note_asks rfl) fun _ => ?_
    refine .after onCx_asks fun reply => ?_
    refine .after onCx_asks fun realized => ?_
    refine .first ?_ fun _ => .pure
    refine .after onCx_asks fun matched => ?_
    split
    · refine .after onCx_asks fun report => ?_
      split
      · exact .pure
      · exact .fail
    · exact .fail

/-- One attempt asks its target once. -/
theorem authorStep_asks {target : RouteTarget Mode Cx Value} {place place' : Nat}
    {modelRequest : Expr Mode} (attempts : List RouteAttempt) (k : Nat) :
    AsksAtMost place' (if place = place' then 1 else 0)
      (authorStep shop task policy target place modelRequest ceiling attempts k) := by
  have honce : AsksAtMost place' (if place = place' then 1 else 0)
      (runTargetOnce shop task policy target place modelRequest ceiling) := by
    refine .first (note_asks ?_) fun _ => ?_
    · simp [List.countP_singleton, Invocation.authors]
    · refine .after onCx_asks fun reply => ?_
      refine .after onCx_asks fun response => ?_
      exact .after onCx_asks fun form => guardForm_asks
  refine .first (fun n => ?_) fun result => ?_
  · refine (honce n).attempt.weaken (fun _ hs => hs) (fun result s hs => ?_) fun _ hs => hs
    cases result with
    | ok accepted => exact hs
    | error reason => exact hs
  · cases result with
    | ok accepted => exact .pure
    | error reason => exact .pure

/-- The targets from a place on are asked at most as often as the policy allows, the others not. -/
theorem runLadder_asks {modelRequest : Expr Mode} {targets : List (RouteTarget Mode Cx Value)}
    {place place' : Nat} {attempts : List RouteAttempt} :
    AsksAtMost place' (if place ≤ place' then policy.escalateAfter else 0)
      (runLadder shop task policy modelRequest ceiling targets place attempts) := by
  induction targets generalizing place attempts with
  | nil => exact .mono .pure (Nat.zero_le _)
  | cons target targets ih =>
    have hrest (attempts : List RouteAttempt) :
        AsksAtMost place' (if place + 1 ≤ place' then policy.escalateAfter else 0)
          (runLadder shop task policy modelRequest ceiling targets (place + 1) attempts) := ih
    unfold runLadder
    cases hskip : targetSkipReason target ceiling with
    | some reason =>
      refine (hrest _).mono ?_
      split_ifs
      all_goals omega
    | none =>
      have hrounds : AsksAtMost place' (policy.escalateAfter * if place = place' then 1 else 0)
          (Effect.rounds (authorStep shop task policy target place modelRequest ceiling)
            policy.escalateAfter 0 attempts) :=
        Effect.Triple.rounds_count _ (authored place')
          (fun attempts k => authorStep_asks attempts k) policy.escalateAfter 0 attempts
      refine AsksAtMost.mono (d := policy.escalateAfter * (if place = place' then 1 else 0) +
        if place + 1 ≤ place' then policy.escalateAfter else 0) (hrounds.bind fun r => ?_) ?_
      · cases r with
        | complete accepted => exact .mono .pure (Nat.zero_le _)
        | again attempts => exact hrest attempts
      · split_ifs
        all_goals omega

/-! ## Whole tasks -/

theorem authorOutcome_realized {accepted : Option (AcceptedAuthorRun Mode)}
    {attempts : List RouteAttempt} {diagnostics : List Diagnostic}
    {outcome : AuthorOutcome Mode Cassette}
    (h : authorOutcome shop task accepted attempts diagnostics = .ok outcome) :
    outcome.realized = accepted.map (·.realized) := by
  obtain ⟨cassette, -, houtcome⟩ := Except.bind_eq_ok_iff.mp h
  cases houtcome
  rfl

/-- The answer of an outcome, if there is one, is checked. -/
def Reports (shop : Workshop Mode Shape Cx Value Response Verifier Event Cassette)
    (task : AuthorTask Mode Shape) (policy : RoutePolicy Mode Cx Value Verifier)
    (outcome : AuthorOutcome Mode Cassette) : Prop :=
  ∀ realized, outcome.realized = some realized →
    AnswerChecked shop task policy.verifiers realized

theorem authorOutcome_proper {accepted : Option (AcceptedAuthorRun Mode)}
    {attempts : List RouteAttempt} {diagnostics : List Diagnostic}
    (h : ∀ run, accepted = some run → AnswerChecked shop task policy.verifiers run.realized) :
    Effect.Triple (Proper shop policy ceiling caller)
      (.ofExcept (authorOutcome shop task accepted attempts diagnostics))
      (fun outcome s => Proper shop policy ceiling caller s ∧ Reports shop task policy outcome)
      (Proper shop policy ceiling caller) := by
  refine .ofExcept (fun s outcome hs houtcome => ⟨hs, fun realized hrealized => ?_⟩) fun _ hs => hs
  rw [authorOutcome_realized houtcome] at hrealized
  obtain ⟨run, hrun, rfl⟩ := Option.map_eq_some_iff.mp hrealized
  exact h run hrun

theorem routeTask_proper {modelRequest : Expr Mode} {diagnostics : List Diagnostic} :
    Effect.Triple (Proper shop policy ceiling caller)
      (routeTask shop task policy modelRequest ceiling diagnostics)
      (fun outcome s => Proper shop policy ceiling caller s ∧ Reports shop task policy outcome)
      (Proper shop policy ceiling caller) := by
  refine .bind (runLadder_proper List.drop_zero) fun r => ?_
  cases r with
  | complete result =>
    intro s hs
    exact authorOutcome_proper (fun run hrun => Option.some.inj hrun ▸ hs.2) s hs.1
  | again attempts =>
    exact (authorOutcome_proper fun _ hrun => by cases hrun).weaken (fun _ hs => hs.1)
      (fun _ _ hs => hs) fun _ hs => hs

theorem routeTask_asks {modelRequest : Expr Mode} {diagnostics : List Diagnostic} {place : Nat} :
    AsksAtMost place policy.escalateAfter
      (routeTask shop task policy modelRequest ceiling diagnostics) := by
  refine .first (.mono runLadder_asks (by rw [if_pos (Nat.zero_le place)])) fun r => ?_
  cases r with
  | complete result => exact .ofExcept
  | again attempts => exact .ofExcept

end Steps

section Task
variable (shop : Workshop Mode Shape Cx Value Response Verifier Event Cassette)
  (task : AuthorTask Mode Shape) (policy : RoutePolicy Mode Cx Value Verifier) (caller : Cx)

/-- The contract cards that the model is shown. -/
def projectedCards : List (ContractCard Mode) :=
  (projectContractsWithCards shop task.contractCards task.projectionCaps).2

def taskCeiling : List Symbol := authorizedCapabilities (projectedCards shop task)

/-- A card names a capability of the same name. -/
def AuthorisedByCard (cards : List (ContractCard Mode)) (symbol : Symbol) : Prop :=
  ∃ card ∈ cards, ∃ allowed ∈ card.capabilitySymbols,
    capabilityName allowed = capabilityName symbol

theorem capabilityAllowed_iff {cards : List (ContractCard Mode)} {symbol : Symbol} :
    capabilityAllowed symbol (authorizedCapabilities cards) = true ↔
      AuthorisedByCard cards symbol := by
  simp only [capabilityAllowed, authorizedCapabilities, AuthorisedByCard, List.any_map,
    List.any_eq_true, SortedSet.mem_elems_ofList, List.mem_flatMap, Function.comp_apply,
    decide_eq_true_eq]
  constructor
  · rintro ⟨allowed, ⟨card, hcard, hmem⟩, hname⟩
    exact ⟨card, hcard, allowed, hmem, hname⟩
  · rintro ⟨card, hcard, allowed, hmem, hname⟩
    exact ⟨allowed, ⟨card, hcard, hmem⟩, hname⟩

/-- What a run of the loop is to keep to: the calls that it made, and what it reports. -/
structure WithinCeiling (outcome : Except Error (AuthorOutcome Mode Cassette))
    (log : List (Invocation Mode)) : Prop where
  /-- Every capability that a realized form names is authorised by a card. -/
  forms : ∀ place form current granted, .realize place form current granted ∈ log →
    Authorised (AuthorisedByCard (projectedCards shop task)) (fun _ => True) form
  /-- A realization runs under capabilities of the context and of the ceiling. -/
  capabilities : ∀ place form current granted, .realize place form current granted ∈ log →
    granted ⊆ current ∧ granted ⊆ ceilingNames (taskCeiling shop task) ∧
      (KeepsCapabilities shop policy → current = shop.capabilities caller)
  /-- No target is called that needs more than the ceiling. -/
  targets : ∀ invocation ∈ log, TargetAllowed policy (taskCeiling shop task) invocation.place
  authoring : ∀ place, log.countP (·.authors place) ≤ policy.escalateAfter
  answer : ∀ result, outcome = .ok result → Reports shop task policy result

variable {shop task policy caller}

theorem runAuthorTask_proper :
    Effect.Triple (Proper shop policy (taskCeiling shop task) caller)
      (runAuthorTask shop task policy)
      (fun outcome s => Proper shop policy (taskCeiling shop task) caller s ∧
        Reports shop task policy outcome)
      (Proper shop policy (taskCeiling shop task) caller) := by
  unfold runAuthorTask
  dsimp only
  split
  · exact authorOutcome_proper fun _ hrun => by cases hrun
  · split
    · exact authorOutcome_proper fun _ hrun => by cases hrun
    · exact routeTask_proper

theorem runAuthorTask_asks {place : Nat} :
    AsksAtMost place policy.escalateAfter (runAuthorTask shop task policy) := by
  unfold runAuthorTask
  dsimp only
  split
  · exact .mono .ofExcept (Nat.zero_le _)
  · split
    · exact .mono .ofExcept (Nat.zero_le _)
    · exact routeTask_asks

/-- A run keeps within the ceiling when the forms that it realizes name no capability beyond it in
the places that the guard leaves out: operators, annotations, tags, local names, number domains. -/
theorem runAuthorTask_withinCeiling_iff
    (shop : Workshop Mode Shape Cx Value Response Verifier Event Cassette)
    (task : AuthorTask Mode Shape) (policy : RoutePolicy Mode Cx Value Verifier) (caller : Cx) :
    let run := runAuthorTask shop task policy ⟨caller, []⟩
    WithinCeiling shop task policy caller run.1 run.2.log ↔
      ∀ place form current granted, .realize place form current granted ∈ run.2.log →
        Authorised (AuthorisedByCard (projectedCards shop task)) (· ≠ .value) form := by
  intro run
  have hstart : Proper shop policy (taskCeiling shop task) caller ⟨caller, []⟩ :=
    ⟨fun _ => rfl, fun _ hmem => absurd hmem List.not_mem_nil⟩
  have hproper : Proper shop policy (taskCeiling shop task) caller run.2 :=
    (runAuthorTask_proper.weaken (fun _ hs => hs) (fun _ _ hs => hs.1) fun _ hs => hs).final hstart
  have hguard (place form current granted)
      (hmem : .realize place form current granted ∈ run.2.log) :
      Authorised (AuthorisedByCard (projectedCards shop task)) (fun _ => True) form ↔
        Authorised (AuthorisedByCard (projectedCards shop task)) (· ≠ .value) form := by
    obtain ⟨-, hform, -⟩ := hproper.log _ hmem
    refine authorised_iff fun symbol hsymbol => ?_
    exact capabilityAllowed_iff.mp (outsideCeiling_eq_none.mp hform symbol hsymbol)
  constructor
  · intro hwithin place form current granted hmem
    exact (hguard place form current granted hmem).mp
      (hwithin.forms place form current granted hmem)
  · intro hforms
    refine ⟨fun place form current granted hmem => ?_, fun place form current granted hmem => ?_,
      fun invocation hmem => ?_, fun place => ?_, fun result hresult => ?_⟩
    · exact (hguard place form current granted hmem).mpr (hforms place form current granted hmem)
    · obtain ⟨-, -, hcaps⟩ := hproper.log _ hmem
      exact hcaps
    · have hallowed := hproper.log invocation hmem
      cases invocation with
      | author place => exact hallowed
      | realize place form current granted => exact hallowed.1
    · have hnone : authored place (⟨caller, []⟩ : Authoring Mode Cx) ≤ 0 := le_refl 0
      have hasked : authored place run.2 ≤ 0 + policy.escalateAfter :=
        (runAuthorTask_asks 0).final hnone
      rwa [Nat.zero_add] at hasked
    · exact (runAuthorTask_proper.ok hstart (Prod.ext hresult rfl)).2

end Task

namespace AuthorSample

/-- A workshop in which the model's answer is the form, and every check passes. -/
def shop : Workshop Unit Unit Unit (Expr Unit) (Expr Unit) Unit Unit Unit where
  displayError _ := ""
  debugExpr _ := ""
  field _ _ := none
  estimatePromptTokens _ := 0
  renderRankedCard _ _ := ""
  authorModelRequest _ _ := .ok .nil
  capabilities _ := ∅
  withCapabilities _ x := x
  asExpr value := pure value
  modelResponse response := .ok response
  terminalModelContent _ := .ok (.string "")
  decodeWithCodec _ _ := pure (.infixOp (.qualified "capability" "exec") .nil .nil)
  checkExpr _ _ := pure ⟨true, []⟩
  runVerifier _ _ := pure (.ok ())
  devEvent _ _ _ := .ok ()
  fromEvents _ _ := .ok ()

/-- No contract card is shown, so that the ceiling is empty. -/
def task : AuthorTask Unit Unit where
  name := .new "task"
  targetCodec := .qualified "codec" "json"
  contractCards := []
  projectionCaps := ⟨100, true⟩
  returnShape := ()
  verifiers := []

def policy : RoutePolicy Unit Unit (Expr Unit) Unit where
  ladder := [{ id := "local", realize := fun _ => pure ⟨.nil, []⟩, requiredCapabilities := [] }]
  escalateAfter := 1
  verifiers _ := none

def run := runAuthorTask shop task policy ⟨(), []⟩

/-- A form with a capability as an operator is realized under an empty ceiling. -/
theorem operator_realized : ¬WithinCeiling shop task policy () run.1 run.2.log := by
  intro hwithin
  have hmem : .realize 0 (.infixOp (.qualified "capability" "exec") .nil .nil) ∅ ∅ ∈ run.2.log :=
    .tail _ (.head _)
  obtain ⟨card, hcard, -⟩ := hwithin.forms _ _ _ _ hmem .operator (.qualified "capability" "exec")
    (.head _) trivial (by decide)
  exact absurd hcard List.not_mem_nil

end AuthorSample

end SimAgentNet.Forge
