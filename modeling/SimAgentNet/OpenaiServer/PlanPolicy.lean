import SimAgentNet.OpenaiServer.PlanTrace

/-! # Privacy and capabilities across the plan cache

The evaluator checks the privacy and the capabilities of the caller where a backend is used. A hit
of the plan cache makes no such check, and the cache is shared by all callers. So what a response
was made with is permitted to its caller as long as no hit answers from an entry that was stored
under a wider policy. -/

namespace SimAgentNet.OpenaiServer
variable {Mode World : Type} {plan : Expr Mode} {env : PlanEnv Mode World}
  {E : Evaluates Mode World} {context : EvalContext Mode} {s s' : PlanEvaluator Mode World}

/-- The use is not refused to a caller with these capabilities under this privacy. -/
def Permitted (capabilities : CapabilitySet) (privacy : PlanPrivacy) : Use → Prop
  | .gateway _ => privacy ≠ .localOnly ∧ federateCapability ∈ capabilities
  | .runner _ locality => privacy = .localOnly → localityIsAllowedForLocalOnly locality = true
  | .remote => privacy ≠ .localOnly ∧ planRemoteCapability ∈ capabilities

/-- What is permitted under the first privacy is under the second. -/
def PlanPrivacy.Narrower (privacy privacy' : PlanPrivacy) : Prop :=
  privacy' = .localOnly → privacy = .localOnly

/-- The capabilities that plans ask for and the first caller has, the second has too. -/
def WithinCapabilities (capabilities capabilities' : CapabilitySet) : Prop :=
  (federateCapability ∈ capabilities → federateCapability ∈ capabilities') ∧
    (planRemoteCapability ∈ capabilities → planRemoteCapability ∈ capabilities')

theorem Permitted.mono {capabilities capabilities' : CapabilitySet} {privacy privacy' : PlanPrivacy}
    (h : Permitted capabilities privacy use) (hprivacy : privacy.Narrower privacy')
    (hcaps : WithinCapabilities capabilities capabilities') :
    Permitted capabilities' privacy' use := by
  cases use with
  | gateway address => exact ⟨fun hp => h.1 (hprivacy hp), hcaps.1 h.2⟩
  | runner address locality => exact fun hp => h (hprivacy hp)
  | remote => exact ⟨fun hp => h.1 (hprivacy hp), hcaps.2 h.2⟩

/-- The entry was made without a backend, or stored under a policy that is no wider than that of
the caller who hits it. -/
def HitWithin (capabilities : CapabilitySet) (hit : PlanPrivacy × CachedResponse Mode) : Prop :=
  hit.2.uses = [] ∨
    hit.2.privacy.Narrower hit.1 ∧ WithinCapabilities hit.2.capabilities capabilities

/-- What an entry was made with was permitted to the caller who stored it. -/
def EntryPermitted (entry : CachedResponse Mode) : Prop :=
  ∀ use ∈ entry.uses, Permitted entry.capabilities entry.privacy use

def CachePermitted (cache : Option (PlanCache Mode)) : Prop :=
  ∀ key entry, cache.bind (·.get? key) = some entry → EntryPermitted entry

theorem HitWithin.permitted {hit : PlanPrivacy × CachedResponse Mode}
    {capabilities : CapabilitySet} (h : HitWithin capabilities hit) (hentry : EntryPermitted hit.2)
    (huse : use ∈ hit.2.uses) : Permitted capabilities hit.1 use := by
  rcases h with hnone | ⟨hprivacy, hcaps⟩
  · rw [hnone] at huse
    cases huse
  · exact (hentry use huse).mono hprivacy hcaps

/-! ## What evaluations use -/

/-- Between the two states the evaluator made new uses, those of the entries it hit among them, under
`privacy` or a narrower one. When the cache was permitted to its writers and the hits are within
the policy, these uses are permitted and the cache stays so. -/
structure Guards (env : PlanEnv Mode World) (privacy : PlanPrivacy)
    (s : PlanEvaluator Mode World) (new : List (PlanPrivacy × Use))
    (s' : PlanEvaluator Mode World) : Prop where
  uses : s'.uses = s.uses ++ new
  narrower : ∀ u ∈ new, u.1.Narrower privacy
  hits : ∃ hits, s'.hits = s.hits ++ hits ∧ ∀ hit ∈ hits, ∀ use ∈ hit.2.uses, (hit.1, use) ∈ new
  permitted : CachePermitted s.cache → (∀ hit ∈ s'.hits, HitWithin env.capabilities hit) →
    CachePermitted s'.cache ∧ ∀ u ∈ new, Permitted env.capabilities u.1 u.2

namespace Guards
variable {privacy privacy' : PlanPrivacy} {new new' : List (PlanPrivacy × Use)}

/-- A step that touches neither the cache nor the accounts. -/
theorem same (huses : s'.uses = s.uses) (hhits : s'.hits = s.hits) (hcache : s'.cache = s.cache) :
    Guards env privacy s [] s' where
  uses := by rw [huses, List.append_nil]
  narrower := nofun
  hits := ⟨[], by rw [hhits, List.append_nil], nofun⟩
  permitted h _ := ⟨hcache ▸ h, nofun⟩

theorem trans (h : Guards env privacy s new s₁) (h' : Guards env privacy s₁ new' s') :
    Guards env privacy s (new ++ new') s' where
  uses := by rw [h'.uses, h.uses, List.append_assoc]
  narrower u hu := (List.mem_append.mp hu).elim (h.narrower u) (h'.narrower u)
  hits := by
    obtain ⟨hits, heq, huses⟩ := h.hits
    obtain ⟨hits', heq', huses'⟩ := h'.hits
    refine ⟨hits ++ hits', by rw [heq', heq, List.append_assoc], fun hit hm use hu => ?_⟩
    rcases List.mem_append.mp hm with hm | hm
    · exact List.mem_append_left _ (huses hit hm use hu)
    · exact List.mem_append_right _ (huses' hit hm use hu)
  permitted hcache hhits := by
    obtain ⟨hits', heq', -⟩ := h'.hits
    obtain ⟨hcache₁, hnew⟩ := h.permitted hcache fun hit hm =>
      hhits hit (heq' ▸ List.mem_append_left _ hm)
    obtain ⟨hcache', hnew'⟩ := h'.permitted hcache₁ hhits
    exact ⟨hcache', fun u hu => (List.mem_append.mp hu).elim (hnew u) (hnew' u)⟩

theorem widen (h : Guards env privacy s new s') (hprivacy : privacy.Narrower privacy') :
    Guards env privacy' s new s' where
  uses := h.uses
  narrower u hu hp := h.narrower u hu (hprivacy hp)
  hits := h.hits
  permitted := h.permitted

/-- Another state with the same cache and accounts at the end. -/
theorem congr (h : Guards env privacy s new s₁) (huses : s'.uses = s₁.uses)
    (hhits : s'.hits = s₁.hits) (hcache : s'.cache = s₁.cache) : Guards env privacy s new s' := by
  have := h.trans (same huses hhits hcache)
  rwa [List.append_nil] at this

/-- Another state with the same cache and accounts at the start. -/
theorem congr_left (h : Guards env privacy s₁ new s') (huses : s₁.uses = s.uses)
    (hhits : s₁.hits = s.hits) (hcache : s₁.cache = s.cache) : Guards env privacy s new s' :=
  (same huses hhits hcache).trans h

/-- A use that was checked. -/
theorem checked {use : Use} (huse : Permitted env.capabilities privacy use) (world : World) :
    Guards env privacy s [(privacy, use)] { s.using privacy use with world } where
  uses := rfl
  narrower u hu := by
    cases List.mem_singleton.mp hu
    exact id
  hits := ⟨[], (List.append_nil _).symm, nofun⟩
  permitted h _ := ⟨h, fun u hu => by cases List.mem_singleton.mp hu; exact huse⟩

end Guards

/-- Every evaluation guards its uses, however it ends. -/
def Guarded (env : PlanEnv Mode World) (E : Evaluates Mode World) : Prop :=
  ∀ p context s out s', E p context s out s' → ∃ new, Guards env context.privacy s new s'

/-- Starting a branch touches neither the cache nor the accounts. -/
theorem Guarded.started (hE : Guarded env E) {combinator : String}
    (h : E child context (s.start combinator child) out s₁) :
    ∃ new, Guards env context.privacy s new s₁ := by
  obtain ⟨new, hnew⟩ := hE _ _ _ _ _ h
  exact ⟨new, hnew.congr_left rfl rfl rfl⟩

/-- Nor does ending it. -/
theorem Guarded.branch (hE : Guarded env E) {combinator status : String} {result : Expr Mode}
    (h : E child context (s.start combinator child) out s₁) {branch : Nat} :
    ∃ new, Guards env context.privacy s new (s₁.finish branch status result) := by
  obtain ⟨new, hnew⟩ := hE.started h
  exact ⟨new, hnew.congr rfl rfl rfl⟩

theorem ChildRun.guards (hE : Guarded env E)
    (h : ChildRun env E combinator child context s out s') :
    ∃ new, Guards env context.privacy s new s' := by
  cases h with
  | completed h => exact hE.branch h
  | failed h => exact hE.branch h
  | stopped h => exact hE.started h

theorem RaceRun.guards (hE : Guarded env E)
    (h : RaceRun env E many context children first firstError s out s') :
    ∃ new, Guards env context.privacy s new s' := by
  induction h with
  | won => exact ⟨[], .same rfl rfl rfl⟩
  | lost => exact ⟨[], .same rfl rfl rfl⟩
  | skip _ _ ih =>
    obtain ⟨new, hnew⟩ := ih
    exact ⟨new, hnew.congr_left rfl rfl rfl⟩
  | winner h _ ih =>
    obtain ⟨new, hnew⟩ := hE.branch h
    obtain ⟨new', hnew'⟩ := ih
    exact ⟨new ++ new', hnew.trans hnew'⟩
  | later h _ ih =>
    obtain ⟨new, hnew⟩ := hE.branch h
    obtain ⟨new', hnew'⟩ := ih
    exact ⟨new ++ new', hnew.trans hnew'⟩
  | failed h _ ih =>
    obtain ⟨new, hnew⟩ := hE.branch h
    obtain ⟨new', hnew'⟩ := ih
    exact ⟨new ++ new', hnew.trans hnew'⟩
  | stopped h => exact hE.started h

theorem FallbackRun.guards (hE : Guarded env E)
    (h : FallbackRun env E context children firstError s out s') :
    ∃ new, Guards env context.privacy s new s' := by
  induction h with
  | none => exact ⟨[], .same rfl rfl rfl⟩
  | accepted h => exact hE.branch h
  | failed h _ ih =>
    obtain ⟨new, hnew⟩ := hE.branch h
    obtain ⟨new', hnew'⟩ := ih
    exact ⟨new ++ new', hnew.trans hnew'⟩
  | stopped h => exact hE.started h

theorem ChainRun.guards (hE : Guarded env E)
    (h : ChainRun env E context children last s out s') :
    ∃ new, Guards env context.privacy s new s' := by
  induction h with
  | done => exact ⟨[], .same rfl rfl rfl⟩
  | next h _ ih =>
    obtain ⟨new, hnew⟩ := h.guards hE
    obtain ⟨new', hnew'⟩ := ih
    exact ⟨new ++ new', hnew.trans (hnew'.congr_left rfl rfl rfl)⟩
  | stopped h => exact h.guards hE

theorem SidesRun.guards (hE : Guarded env E)
    (h : SidesRun env E context children transcripts s out s') :
    ∃ new, Guards env context.privacy s new s' := by
  induction h with
  | done => exact ⟨[], .same rfl rfl rfl⟩
  | next h _ ih =>
    obtain ⟨new, hnew⟩ := h.guards hE
    obtain ⟨new', hnew'⟩ := ih
    exact ⟨new ++ new', hnew.trans hnew'⟩
  | stopped h => exact h.guards hE

/-- A combinator evaluates its child under its own privacy or a narrower one. -/
theorem Combinator.wraps_narrower {c : Combinator} {args : List (Expr Mode)}
    (h : c.wraps args context = some context') : context'.privacy.Narrower context.privacy := by
  cases c with
  | budget | market | trace =>
    cases h
    exact id
  | «local» =>
    cases h
    exact fun _ => rfl
  | race | verify | debate | chain | fallback | cache | remote => cases h

/-- A response is stored with what was used for it. -/
theorem Guards.stored {new : List (PlanPrivacy × Use)} {privacy : PlanPrivacy} {key : PlanCacheKey}
    {response : Expr Mode} (h : Guards env privacy s new s') :
    Guards env privacy s new { s' with
      cache := s'.cache.map (·.insert key
        { response, uses := (s'.uses.drop s.uses.length).map (·.2), privacy,
          capabilities := env.capabilities }) } where
  uses := h.uses
  narrower := h.narrower
  hits := h.hits
  permitted hcache hhits := by
    obtain ⟨hcache', hnew⟩ := h.permitted hcache hhits
    refine ⟨?_, hnew⟩
    have hdrop : s'.uses.drop s.uses.length = new := by rw [h.uses, List.drop_left]
    intro key' entry hget
    cases hc : s'.cache with
    | none =>
      rw [hc] at hget
      cases hget
    | some cache =>
      simp only [hc, hdrop, Option.map_some, Option.bind_some, SortedMap.get?_insert] at hget
      split at hget
      · cases hget
        intro use huse
        obtain ⟨u, hu, rfl⟩ := List.mem_map.mp huse
        exact (hnew u hu).mono (h.narrower u hu) ⟨id, id⟩
      · exact hcache' key' entry (by rw [hc]; exact hget)

/-- A hit adds what the entry was made with. -/
theorem Guards.hit {privacy : PlanPrivacy} {cached : CachedResponse Mode}
    {events : List (EventInput Mode)} (hget : s.cache.bind (·.get? key) = some cached) :
    Guards env privacy s (cached.uses.map (privacy, ·)) { s with
      events, uses := s.uses ++ cached.uses.map (privacy, ·)
      hits := s.hits ++ [(privacy, cached)] } where
  uses := rfl
  narrower u hu := by
    obtain ⟨use, -, rfl⟩ := List.mem_map.mp hu
    exact id
  hits := by
    refine ⟨[(privacy, cached)], rfl, fun hit hm use hu => ?_⟩
    cases List.mem_singleton.mp hm
    exact List.mem_map.mpr ⟨use, hu, rfl⟩
  permitted hcache hhits := by
    refine ⟨hcache, fun u hu => ?_⟩
    obtain ⟨use, huse, rfl⟩ := List.mem_map.mp hu
    exact (hhits (privacy, cached) (by simp)).permitted (hcache key cached hget) huse

theorem AtomRun.guards {address : String} (h : AtomRun env address context s out s') :
    ∃ new, Guards env context.privacy s new s' := by
  cases h with
  | answered => exact ⟨[], .same rfl rfl rfl⟩
  | gateway hprivacy hcap _ world =>
    have huse : Permitted env.capabilities context.privacy (.gateway address) := ⟨hprivacy, hcap⟩
    exact ⟨_, .checked huse world⟩
  | runner locality hlocality _ world =>
    have huse : Permitted env.capabilities context.privacy (.runner address locality) := hlocality
    exact ⟨_, .checked huse world⟩

/-- A call guards its uses when the evaluations below it do. -/
theorem Steps.guards (hE : Guarded env E) (h : Steps env E plan context s out s') :
    ∃ new, Guards env context.privacy s new s' := by
  cases h with
  | refused => exact ⟨[], .same rfl rfl rfl⟩
  | atom _ h => exact h.guards
  | race _ h => exact h.guards hE
  | fallback _ h => exact h.guards hE
  | chain _ h =>
    obtain ⟨new, hnew⟩ := h.guards hE
    exact ⟨new, hnew.congr rfl rfl rfl⟩
  | emptyChain _ h =>
    obtain ⟨new, hnew⟩ := h.guards hE
    exact ⟨new, hnew.congr rfl rfl rfl⟩
  | brokenChain _ h => exact h.guards hE
  | wrapped c _ hwraps _ h =>
    obtain ⟨new, hnew⟩ := h.guards hE
    exact ⟨new, hnew.widen (Combinator.wraps_narrower hwraps)⟩
  | remote _ _ hprivacy hcap h =>
    obtain ⟨new, hnew⟩ := h.guards hE
    have huse : Permitted env.capabilities context.privacy .remote := ⟨hprivacy, hcap⟩
    exact ⟨_, (Guards.checked huse s.world).trans hnew⟩
  | childless => exact ⟨[], .same rfl rfl rfl⟩
  | uncached _ _ h => exact h.guards hE
  | hit _ _ _ hget _ => exact ⟨_, .hit hget⟩
  | cached _ _ _ h =>
    obtain ⟨new, hnew⟩ := h.guards hE
    exact ⟨new, hnew.stored⟩
  | unverified => exact ⟨[], .same rfl rfl rfl⟩
  | ungenerated _ _ h => exact h.guards hE
  | checkerless _ _ h => exact h.guards hE
  | unchecked _ _ h _ h' =>
    obtain ⟨new, hnew⟩ := h.guards hE
    obtain ⟨new', hnew'⟩ := h'.guards hE
    exact ⟨_, hnew.trans hnew'⟩
  | checked _ _ h _ h' =>
    obtain ⟨new, hnew⟩ := h.guards hE
    obtain ⟨new', hnew'⟩ := h'.guards hE
    exact ⟨_, hnew.trans hnew'⟩
  | undebated _ h => exact h.guards hE
  | judged _ h h' =>
    obtain ⟨new, hnew⟩ := h.guards hE
    obtain ⟨new', hnew'⟩ := h'.guards hE
    refine ⟨new ++ new', Guards.congr (hnew.trans (hnew'.congr_left ?_ ?_ ?_)) rfl rfl rfl⟩
    all_goals rfl

theorem Eval.guarded (env : PlanEnv Mode World) (depth : Nat) :
    Guarded env (Ran (Eval.eval env depth)) := by
  induction depth with
  | zero =>
    intro p context s out s' h
    cases h
    exact ⟨[], .same rfl rfl rfl⟩
  | succ depth ih =>
    intro p context s out s' h
    exact (Eval.eval_steps h).guards ih

/-! ## Evaluations by many callers -/

/-- An evaluation of an admitted plan: its outcome and the state of the evaluator at its end. -/
def evaluation (env : PlanEnv Mode World) (plan request : Expr Mode) (world : World)
    (cache : Option (PlanCache Mode)) : Option (Outcome Mode × PlanEvaluator Mode World) :=
  match admitPlan env plan request with
  | .error _ => none
  | .ok model => some (Eval.eval env (nesting plan + 1) plan (.fromRequest env.host request)
      (.new world cache model))

/-- A report is made from the response and the events of the evaluation. -/
theorem report_of_evaluation {request : Expr Mode} {world : World}
    {cache : Option (PlanCache Mode)} {response : ModelResponse Mode}
    (h : evaluation env plan request world cache = some (.ok response, s)) :
    evalPlanReport env plan request (world, cache) =
      (.ok ⟨env.api.responseToExpr response, s.events⟩, (s.world, s.cache)) := by
  unfold evaluation at h
  unfold evalPlanReport
  cases hpassed : admitPlan env plan request with
  | error e =>
    rw [hpassed] at h
    cases h
  | ok model =>
    rw [hpassed] at h
    simp only [Option.some.inj h]

/-- The caches that evaluations by any callers leave, one after the other, when every hit is within
the policy of its caller. Callers differ in their capabilities, targets and world. -/
inductive CacheHistory : PlanCache Mode → Prop
  | empty : CacheHistory ∅
  | evaluated {World : Type} {env : PlanEnv Mode World} {plan request : Expr Mode} {world : World}
      {out : Outcome Mode} {s : PlanEvaluator Mode World} {cache cache' : PlanCache Mode}
      (h : CacheHistory cache)
      (hrun : evaluation env plan request world (some cache) = some (out, s))
      (hhits : ∀ hit ∈ s.hits, HitWithin env.capabilities hit) (hcache : s.cache = some cache') :
    CacheHistory cache'

/-- An evaluation whose hits are within the policy of its caller uses only what is permitted to
the caller, and leaves entries that were permitted to their writers. -/
theorem evaluation_permitted {request : Expr Mode} {world : World} {cache : Option (PlanCache Mode)}
    (hrun : evaluation env plan request world cache = some (out, s))
    (hcache : CachePermitted cache) (hhits : ∀ hit ∈ s.hits, HitWithin env.capabilities hit) :
    CachePermitted s.cache ∧
      (∀ u ∈ s.uses, Permitted env.capabilities u.1 u.2 ∧
        u.1.Narrower (EvalContext.fromRequest env.host request).privacy) ∧
      ∀ hit ∈ s.hits, ∀ use ∈ hit.2.uses, (hit.1, use) ∈ s.uses := by
  unfold evaluation at hrun
  split at hrun
  · cases hrun
  · obtain ⟨new, hnew⟩ := Eval.guarded env _ _ _ _ _ _ (Option.some.inj hrun)
    obtain ⟨hcache', huses⟩ := hnew.permitted hcache hhits
    obtain ⟨hits, hhits', hamong⟩ := hnew.hits
    have hstart : s.uses = new := hnew.uses
    have hstart' : s.hits = hits := hhits'
    rw [hstart, hstart']
    exact ⟨hcache', fun u hu => ⟨huses u hu, hnew.narrower u hu⟩, hamong⟩

theorem CacheHistory.permitted {cache : PlanCache Mode} (h : CacheHistory cache) :
    CachePermitted (some cache) := by
  induction h with
  | empty =>
    intro key entry hget
    cases hget
  | evaluated _ hrun hhits hcache ih =>
    rw [← hcache]
    exact (evaluation_permitted hrun ih hhits).1

/-- In every sequence of evaluations by any callers that share the cache, in which each hit answers
from an entry that was made without a backend or stored under a policy no wider than that of the
caller, a response is made with what is permitted to its caller: no gateway and no runner that is
not local where the privacy is local-only, no gateway and no remote plan without the capability. -/
theorem evaluation_respects_policy {World : Type} {env : PlanEnv Mode World}
    {plan request : Expr Mode} {cache : PlanCache Mode} {world : World}
    {response : ModelResponse Mode} {s : PlanEvaluator Mode World} (hcache : CacheHistory cache)
    (hrun : evaluation env plan request world (some cache) = some (.ok response, s))
    (hhits : ∀ hit ∈ s.hits, HitWithin env.capabilities hit) :
    (evalPlanReport env plan request (world, some cache)).1 =
        .ok ⟨env.api.responseToExpr response, s.events⟩ ∧
      (∀ u ∈ s.uses, Permitted env.capabilities u.1 u.2 ∧
        u.1.Narrower (EvalContext.fromRequest env.host request).privacy) ∧
      ∀ hit ∈ s.hits, ∀ use ∈ hit.2.uses, Permitted env.capabilities hit.1 use := by
  obtain ⟨-, huses, hamong⟩ := evaluation_permitted hrun hcache.permitted hhits
  refine ⟨by rw [report_of_evaluation hrun], huses, fun hit hm use hu => ?_⟩
  exact (huses _ (hamong hit hm use hu)).1

namespace PlanSample

/-- A runner that is not local. -/
def farRunner : RunnerRegistry Unit Unit where
  locality _ := some (.new "remote")
  infer address _ := pure (.new (.new "runner") address [.string "hi"] (.new "stop"))

def farEnv : PlanEnv Unit Unit := { PlanSample.env with runners := some farRunner }

/-- The runner behind the cache, and the same where only local models are allowed. -/
def cachedFar : Expr Unit := combine "cache" [atom "runner/far"]

def localFar : Expr Unit := combine "local" [cachedFar]

/-- What the first evaluation leaves. -/
def farCache : PlanCache Unit :=
  match evalPlanReport farEnv cachedFar (.string "hello") ((), some ∅) with
  | (_, (_, some cache)) => cache
  | _ => ∅

/-- The end of an evaluation that starts with the cache. -/
def final (plan : Expr Unit) (cache : PlanCache Unit) : PlanEvaluator Unit Unit :=
  match evaluation farEnv plan (.string "hello") () (some cache) with
  | some (_, s) => s
  | none => evaluator

theorem farHistory : CacheHistory farCache := by
  have hrun : evaluation farEnv cachedFar (.string "hello") () (some ∅) =
      some (.ok (.new (.new "runner") "runner/far" [.string "hi"] (.new "stop")),
        final cachedFar ∅) := rfl
  have hhits : (final cachedFar ∅).hits = [] := rfl
  refine .evaluated .empty hrun ?_ rfl
  rw [hhits]
  nofun

end PlanSample

/-- The far runner is refused where only local models are allowed, but its response is returned
once another plan has left it in the cache. -/
theorem local_plan_hits_remote_entry :
    CacheHistory PlanSample.farCache ∧
    (evalPlanReport PlanSample.farEnv PlanSample.localFar (.string "hello") ((), some ∅)).1 =
      .error (.failure (.eval "local-only privacy rejects remote model runner/far")) ∧
    (∃ report, (evalPlanReport PlanSample.farEnv PlanSample.localFar (.string "hello")
      ((), some PlanSample.farCache)).1 = .ok report) ∧
    (PlanPrivacy.localOnly, Use.runner "runner/far" (.new "remote")) ∈
      (PlanSample.final PlanSample.localFar PlanSample.farCache).uses ∧
    ¬Permitted PlanSample.farEnv.capabilities .localOnly (.runner "runner/far" (.new "remote")) := by
  have huses : (PlanSample.final PlanSample.localFar PlanSample.farCache).uses =
      [(.localOnly, .runner "runner/far" (.new "remote"))] := rfl
  refine ⟨PlanSample.farHistory, rfl, ⟨_, rfl⟩, ?_, fun h => absurd (h rfl) (by decide)⟩
  rw [huses]
  exact List.mem_singleton_self _

theorem evaluation_respects_policy_cachedFar :
    CacheHistory PlanSample.farCache ∧
    (∀ hit ∈ (PlanSample.final PlanSample.cachedFar PlanSample.farCache).hits,
      HitWithin PlanSample.farEnv.capabilities hit) ∧
    ∀ u ∈ (PlanSample.final PlanSample.cachedFar PlanSample.farCache).uses,
      Permitted PlanSample.farEnv.capabilities u.1 u.2 := by
  have hrun : evaluation PlanSample.farEnv PlanSample.cachedFar (.string "hello") ()
      (some PlanSample.farCache) =
        some (.ok (.new (.new "runner") "model" [.list [.string "hi"]] (.new "stop")),
          PlanSample.final PlanSample.cachedFar PlanSample.farCache) := rfl
  have hwithin : ∀ hit ∈ (PlanSample.final PlanSample.cachedFar PlanSample.farCache).hits,
      HitWithin PlanSample.farEnv.capabilities hit := by
    have hhits : (PlanSample.final PlanSample.cachedFar PlanSample.farCache).hits =
        [(.allowRemote, ⟨.list [.string "hi"], [.runner "runner/far" (.new "remote")],
          .allowRemote, PlanSample.farEnv.capabilities⟩)] := rfl
    rw [hhits]
    intro hit hm
    cases List.mem_singleton.mp hm
    exact .inr ⟨nofun, id, id⟩
  exact ⟨PlanSample.farHistory, hwithin, fun u hu =>
    ((evaluation_respects_policy PlanSample.farHistory hrun hwithin).2.1 u hu).1⟩

end SimAgentNet.OpenaiServer
