import SimAgentNet.Data.Brackets
import SimAgentNet.OpenaiServer.PlanScope

/-! # The events of a plan evaluation

An evaluation that ends with a response or an error leaves the trace of a forest of branches, one
branch for each plan that it evaluates below its own. -/

namespace SimAgentNet.OpenaiServer
open Brackets
variable {Mode World : Type} {plan : Expr Mode} {env : PlanEnv Mode World}
  {E : Evaluates Mode World} {context : EvalContext Mode} {s s' : PlanEvaluator Mode World}

/-- What the two events of a branch say of it. -/
structure Branch (Mode : Type) where
  combinator : String
  plan : Expr Mode
  status : String
  result : Expr Mode

abbrev Forest (Mode : Type) := List (Node (EventInput Mode) (Branch Mode))

/-- The branch ended as the one whose response is taken. -/
def Branch.chosen (b : Branch Mode) : Bool := b.status == "winner" || b.status == "accepted"

def nodeChosen : Node (EventInput Mode) (Branch Mode) → Bool
  | .note _ => false
  | .branch b _ => b.chosen

def tokenEvent : Token (EventInput Mode) (Branch Mode) → EventInput Mode
  | .note e => e
  | .opens n b => PlanEvaluator.startEvent n b.combinator b.plan
  | .closes n b => PlanEvaluator.endEvent n b.status b.result

/-- The events of a forest whose first branch has the number `n`. -/
def eventsFrom (n : Nat) (forest : Forest Mode) : List (EventInput Mode) :=
  (tokens n forest).map tokenEvent

/-- The forest is what an evaluation of `plan` leaves, of which `ok` says that it responded: its
branches are those of the plans below `plan`, another event is the hit of a cache plan, and a race
or fallback has one chosen branch when it responds and none when it fails. A branch holds what the
evaluation of its own plan leaves. -/
inductive Sound : Expr Mode → (ok : Bool) → Forest Mode → Prop
  | mk {plan : Expr Mode} {ok : Bool} {forest : Forest Mode}
      (notes : ∀ e, .note e ∈ forest → e.kind = .new "cache-hit" ∧
        ∃ args, planParts plan = .ok (Combinator.cache.name, args))
      (below : ∀ b inner, .branch b inner ∈ forest → Below plan b.plan)
      (chosen : ∀ (c : Combinator) args, c = .race ∨ c = .fallback →
        planParts plan = .ok (c.name, args) → forest.countP nodeChosen = if ok then 1 else 0)
      (inner : ∀ b inner, .branch b inner ∈ forest → Sound b.plan (b.status != "error") inner) :
    Sound plan ok forest

/-- Every branch of a sound forest holds a sound forest. -/
theorem Sound.within {forest inner : Forest Mode} {b : Branch Mode} (h : Sound plan ok forest)
    (hb : Within b inner forest) : Sound b.plan (b.status != "error") inner := by
  induction hb generalizing plan ok with
  | here hmem =>
    obtain ⟨_, _, _, hinner⟩ := h
    exact hinner _ _ hmem
  | deeper hmem _ ih =>
    obtain ⟨_, _, _, hinner⟩ := h
    exact ih (hinner _ _ hmem)

/-! ## Recorded forests -/

/-- Between `s` and `s'` the evaluator has recorded the events of the forest. -/
structure Records (s : PlanEvaluator Mode World) (forest : Forest Mode)
    (s' : PlanEvaluator Mode World) : Prop where
  events : s'.events = s.events ++ eventsFrom s.nextBranch forest
  next : s'.nextBranch = s.nextBranch + sizes forest

theorem Records.refl (s : PlanEvaluator Mode World) : Records s [] s :=
  ⟨(List.append_nil _).symm, rfl⟩

theorem Records.append {forest forest' : Forest Mode} (h : Records s forest s₁)
    (h' : Records s₁ forest' s') : Records s (forest ++ forest') s' := by
  constructor
  · rw [h'.events, h.events, h.next, eventsFrom, eventsFrom, eventsFrom, tokens_append,
      List.map_append, List.append_assoc]
  · rw [h'.next, h.next, sizes_append, Nat.add_assoc]

/-- A branch holds what was recorded after its start. -/
theorem Records.branch {inner : Forest Mode} {combinator : String} {child : Expr Mode}
    (h : Records (s.start combinator child) inner s₁) (status : String) (result : Expr Mode) :
    Records s [.branch ⟨combinator, child, status, result⟩ inner]
      (s₁.finish s.nextBranch status result) := by
  constructor
  · simp [PlanEvaluator.finish, h.events, PlanEvaluator.start, eventsFrom, tokens, Node.tokens,
      tokenEvent]
  · have hsize : s₁.nextBranch = s.nextBranch + 1 + sizes inner := h.next
    simp only [PlanEvaluator.finish, hsize, sizes, Node.size]
    omega

def responded : Outcome Mode → Bool
  | .ok _ => true
  | .error _ => false

/-- Evaluations of `p` that respond or fail record what an evaluation of `p` may. -/
def EventsRecorded (E : Evaluates Mode World) (p : Expr Mode) : Prop :=
  ∀ context s out s', E p context s out s' → Settled out →
    ∃ forest, Records s forest s' ∧ Sound p (responded out) forest

/-- A forest of branches for some of the plans. -/
def Visits (children : List (Expr Mode)) (forest : Forest Mode) : Prop :=
  ∀ node ∈ forest, ∃ b inner, node = .branch b inner ∧ b.plan ∈ children ∧
    Sound b.plan (b.status != "error") inner

theorem Visits.nil (children : List (Expr Mode)) : Visits children [] :=
  fun _ h => absurd h List.not_mem_nil

theorem Visits.cons {children : List (Expr Mode)} {b : Branch Mode} {inner forest : Forest Mode}
    (hplan : b.plan ∈ children) (hinner : Sound b.plan (b.status != "error") inner)
    (h : Visits children forest) : Visits children (.branch b inner :: forest) := by
  intro node hnode
  rcases List.mem_cons.mp hnode with rfl | hnode
  · exact ⟨b, inner, rfl, hplan, hinner⟩
  · exact h node hnode

theorem Visits.mono {children children' : List (Expr Mode)} {forest : Forest Mode}
    (h : Visits children forest) (hsub : ∀ c ∈ children, c ∈ children') :
    Visits children' forest := by
  intro node hnode
  obtain ⟨b, inner, rfl, hplan, hinner⟩ := h node hnode
  exact ⟨b, inner, rfl, hsub _ hplan, hinner⟩

theorem Visits.append {children : List (Expr Mode)} {forest forest' : Forest Mode}
    (h : Visits children forest) (h' : Visits children forest') :
    Visits children (forest ++ forest') := by
  intro node hnode
  rcases List.mem_append.mp hnode with hnode | hnode
  · exact h node hnode
  · exact h' node hnode

/-- Branches for plans below `plan` are sound for it, the choice among them apart. -/
theorem Visits.sound {children : List (Expr Mode)} {forest : Forest Mode}
    (h : Visits children forest) (hbelow : ∀ c ∈ children, Below plan c)
    (hchosen : ∀ (c : Combinator) args, c = .race ∨ c = .fallback →
      planParts plan = .ok (c.name, args) → forest.countP nodeChosen = if ok then 1 else 0) :
    Sound plan ok forest := by
  refine .mk ?_ ?_ hchosen ?_
  · intro e he
    obtain ⟨b, inner, hb, _⟩ := h _ he
    cases hb
  · intro b inner hb
    obtain ⟨_, _, heq, hplan, _⟩ := h _ hb
    cases heq
    exact hbelow _ hplan
  · intro b inner hb
    obtain ⟨_, _, heq, _, hinner⟩ := h _ hb
    cases heq
    exact hinner

/-- A plan of another combinator makes no choice. -/
theorem no_choice {c : Combinator} {P : Prop} (hp : planParts plan = .ok (c.name, args))
    (hrace : c ≠ .race) (hfallback : c ≠ .fallback) (c' : Combinator) (args' : List (Expr Mode))
    (hc : c' = .race ∨ c' = .fallback) (hp' : planParts plan = .ok (c'.name, args')) : P := by
  rw [hp] at hp'
  have hname := name_injective (Prod.mk.inj (Except.ok.inj hp')).1
  rcases hc with rfl | rfl
  · exact absurd hname hrace
  · exact absurd hname hfallback

/-- An atom records nothing. -/
theorem Sound.atom (hp : planParts plan = .ok ("atom", args)) : Sound plan ok [] := by
  refine (Visits.nil []).sound (fun _ h => absurd h List.not_mem_nil) ?_
  intro c args' _ hp'
  rw [hp] at hp'
  exact absurd (Prod.mk.inj (Except.ok.inj hp')).1.symm (name_ne_atom c)

theorem planParts_of_slow (h : Eval.isSlowFixture plan = true) :
    ∃ args, planParts plan = .ok ("atom", args) := by
  simp only [Eval.isSlowFixture, atomAddress, beq_iff_eq] at h
  split at h
  · rename_i hp
    exact ⟨_, hp⟩
  · cases h

/-! ## What the runs record -/

/-- A branch for one child, whose status says whether the child responded. -/
theorem EventsRecorded.branch (hE : EventsRecorded E child)
    (h : E child context (s.start combinator child) out s₁) (hout : Settled out) (status : String)
    (result : Expr Mode) (hstatus : (status != "error") = responded out) :
    ∃ inner, Records s [.branch ⟨combinator, child, status, result⟩ inner]
        (s₁.finish s.nextBranch status result) ∧ Sound child (status != "error") inner := by
  obtain ⟨inner, hrecords, hsound⟩ := hE context _ _ _ h hout
  rw [hstatus]
  exact ⟨inner, hrecords.branch status result, hsound⟩

theorem ChildRun.records (hE : EventsRecorded E child)
    (h : ChildRun env E combinator child context s out s') (hout : Settled out) :
    ∃ forest, Records s forest s' ∧ Visits [child] forest := by
  cases h with
  | completed h =>
    obtain ⟨inner, hrecords, hinner⟩ := hE.branch h hout "completed" _ (by simp [responded])
    exact ⟨_, hrecords, (Visits.nil _).cons List.mem_cons_self hinner⟩
  | failed h =>
    obtain ⟨inner, hrecords, hinner⟩ := hE.branch h hout "error" _ (by simp [responded])
    exact ⟨_, hrecords, (Visits.nil _).cons List.mem_cons_self hinner⟩
  | stopped _ hstop => exact absurd hout (not_settled_of_abrupt hstop)

/-- A branch before the branches of the other children. -/
theorem Visits.next {children : List (Expr Mode)} {b : Branch Mode} {inner forest : Forest Mode}
    (hinner : Sound b.plan (b.status != "error") inner) (h : Visits children forest) :
    Visits (b.plan :: children) (.branch b inner :: forest) :=
  (h.mono fun _ hc => List.mem_cons_of_mem _ hc).cons List.mem_cons_self hinner

/-- A race that has a response keeps it. -/
theorem RaceRun.responded_of_won {children : List (Expr Mode)}
    (h : RaceRun env E many context children first firstError s out s') (hfirst : first.isSome)
    (hout : Settled out) : responded out = true := by
  induction h with
  | won => rfl
  | lost => cases hfirst
  | skip _ _ ih => exact ih hfirst hout
  | winner => cases hfirst
  | later _ _ ih => exact ih rfl hout
  | failed _ _ ih => exact ih hfirst hout
  | stopped _ hstop => exact absurd hout (not_settled_of_abrupt hstop)

/-- A race that responds chooses one branch, unless it had chosen one before. -/
theorem RaceRun.records {children : List (Expr Mode)} (hE : ∀ child ∈ children, EventsRecorded E child)
    (h : RaceRun env E many context children first firstError s out s') (hout : Settled out) :
    ∃ forest, Records s forest s' ∧ Visits children forest ∧
      forest.countP nodeChosen = if responded out ∧ first = none then 1 else 0 := by
  induction h with
  | won => exact ⟨[], .refl _, .nil _, by simp⟩
  | lost => exact ⟨[], .refl _, .nil _, by simp [responded]⟩
  | skip hslow _ ih =>
    obtain ⟨forest, hrecords, hvisits, hcount⟩ := ih (fun c hc => hE c (.tail _ hc)) hout
    obtain ⟨args, hatom⟩ := planParts_of_slow hslow.2
    refine ⟨_, ((Records.refl _).branch _ _).append hrecords, hvisits.next (.atom hatom), ?_⟩
    simpa [nodeChosen, Branch.chosen] using hcount
  | winner h h' ih =>
    obtain ⟨forest, hrecords, hvisits, hcount⟩ := ih (fun c hc => hE c (.tail _ hc)) hout
    obtain ⟨inner, hbranch, hinner⟩ :=
      (hE _ (.head _)).branch h (settled_ok _) "winner" _ (by simp [responded])
    refine ⟨_, hbranch.append hrecords, hvisits.next hinner, ?_⟩
    have hcount : forest.countP nodeChosen = 0 := by simpa using hcount
    simp [nodeChosen, Branch.chosen, hcount, h'.responded_of_won rfl hout]
  | later h _ ih =>
    obtain ⟨forest, hrecords, hvisits, hcount⟩ := ih (fun c hc => hE c (.tail _ hc)) hout
    obtain ⟨inner, hbranch, hinner⟩ :=
      (hE _ (.head _)).branch h (settled_ok _) "cancelled" _ (by simp [responded])
    refine ⟨_, hbranch.append hrecords, hvisits.next hinner, ?_⟩
    simpa [nodeChosen, Branch.chosen] using hcount
  | failed h _ ih =>
    obtain ⟨forest, hrecords, hvisits, hcount⟩ := ih (fun c hc => hE c (.tail _ hc)) hout
    obtain ⟨inner, hbranch, hinner⟩ :=
      (hE _ (.head _)).branch h (settled_failure _) "error" _ (by simp [responded])
    refine ⟨_, hbranch.append hrecords, hvisits.next hinner, ?_⟩
    simpa [nodeChosen, Branch.chosen] using hcount
  | stopped _ hstop => exact absurd hout (not_settled_of_abrupt hstop)

theorem FallbackRun.records {children : List (Expr Mode)}
    (hE : ∀ child ∈ children, EventsRecorded E child)
    (h : FallbackRun env E context children firstError s out s') (hout : Settled out) :
    ∃ forest, Records s forest s' ∧ Visits children forest ∧
      forest.countP nodeChosen = if responded out then 1 else 0 := by
  induction h with
  | none => exact ⟨[], .refl _, .nil _, by simp [responded]⟩
  | accepted h =>
    obtain ⟨inner, hbranch, hinner⟩ :=
      (hE _ (.head _)).branch h (settled_ok _) "accepted" _ (by simp [responded])
    refine ⟨_, hbranch, (Visits.nil _).next hinner, ?_⟩
    simp [nodeChosen, Branch.chosen, responded]
  | failed h _ ih =>
    obtain ⟨forest, hrecords, hvisits, hcount⟩ := ih (fun c hc => hE c (.tail _ hc)) hout
    obtain ⟨inner, hbranch, hinner⟩ :=
      (hE _ (.head _)).branch h (settled_failure _) "error" _ (by simp [responded])
    refine ⟨_, hbranch.append hrecords, hvisits.next hinner, ?_⟩
    simpa [nodeChosen, Branch.chosen] using hcount
  | stopped _ hstop => exact absurd hout (not_settled_of_abrupt hstop)

/-- An outcome of the children of a chain or a debate that is no abrupt stop. -/
def Returned (out : Except Stop α) : Prop := (∃ a, out = .ok a) ∨ ∃ e, out = .error (.failure e)

theorem Visits.head {child : Expr Mode} {forest : Forest Mode} (h : Visits [child] forest)
    (children : List (Expr Mode)) : Visits (child :: children) forest :=
  h.mono fun _ hc => List.mem_singleton.mp hc ▸ List.mem_cons_self

theorem ChainRun.records {children : List (Expr Mode)} (hE : ∀ child ∈ children, EventsRecorded E child)
    (h : ChainRun env E context children last s out s') (hout : Returned out) :
    ∃ forest, Records s forest s' ∧ Visits children forest := by
  induction h with
  | done => exact ⟨[], .refl _, .nil _⟩
  | next h _ ih =>
    obtain ⟨branch, hbranch, hvisit⟩ := h.records (hE _ (.head _)) (settled_ok _)
    obtain ⟨forest, ⟨hevents, hnext⟩, hvisits⟩ := ih (fun c hc => hE c (.tail _ hc)) hout
    exact ⟨branch ++ forest, hbranch.append ⟨hevents, hnext⟩,
      (hvisit.head _).append (hvisits.mono fun _ hc => .tail _ hc)⟩
  | stopped h =>
    rcases hout with ⟨_, ho⟩ | ⟨e, he⟩
    · cases ho
    · cases he
      obtain ⟨branch, hbranch, hvisit⟩ := h.records (hE _ (.head _)) (settled_failure _)
      exact ⟨branch, hbranch, hvisit.head _⟩

theorem SidesRun.records {children : List (Expr Mode)} (hE : ∀ child ∈ children, EventsRecorded E child)
    (h : SidesRun env E context children transcripts s out s') (hout : Returned out) :
    ∃ forest, Records s forest s' ∧ Visits children forest := by
  induction h with
  | done => exact ⟨[], .refl _, .nil _⟩
  | next h _ ih =>
    obtain ⟨branch, hbranch, hvisit⟩ := h.records (hE _ (.head _)) (settled_ok _)
    obtain ⟨forest, hrecords, hvisits⟩ := ih (fun c hc => hE c (.tail _ hc)) hout
    exact ⟨branch ++ forest, hbranch.append hrecords,
      (hvisit.head _).append (hvisits.mono fun _ hc => .tail _ hc)⟩
  | stopped h =>
    rcases hout with ⟨_, ho⟩ | ⟨e, he⟩
    · cases ho
    · cases he
      obtain ⟨branch, hbranch, hvisit⟩ := h.records (hE _ (.head _)) (settled_failure _)
      exact ⟨branch, hbranch, hvisit.head _⟩

/-! ## Whole evaluations -/

theorem returned_of_settled {stop : Stop} (h : Settled (.error stop : Outcome Mode)) :
    Returned (.error stop : Except Stop α) := by
  rcases h with ⟨_, ho⟩ | ⟨e, he⟩
  · cases ho
  · cases he
    exact .inr ⟨e, rfl⟩

theorem Visits.of_getElem? {children : List (Expr Mode)} {forest : Forest Mode} {i : Nat}
    (h : Visits [child] forest) (hchild : children[i]? = some child) : Visits children forest :=
  h.mono fun _ hc => List.mem_singleton.mp hc ▸ List.mem_of_getElem? hchild

/-- The branches of children of a plan that makes no choice. -/
theorem Visits.sound_children {c : Combinator} {forest : Forest Mode}
    (h : Visits (childArgs args) forest) (hp : planParts plan = .ok (c.name, args))
    (hrace : c ≠ .race) (hfallback : c ≠ .fallback) : Sound plan ok forest :=
  h.sound (fun _ hc => ⟨c, args, hp, .inl hc⟩) (no_choice hp hrace hfallback)

/-- The branch of one child of a plan that makes no choice. -/
theorem Visits.sound_child {c : Combinator} {forest : Forest Mode} (h : Visits [child] forest)
    (hp : planParts plan = .ok (c.name, args)) {i : Nat} (hchild : (childArgs args)[i]? = some child)
    (hrace : c ≠ .race) (hfallback : c ≠ .fallback) : Sound plan ok forest :=
  (h.of_getElem? hchild).sound_children hp hrace hfallback

theorem Combinator.wraps_ne {c : Combinator} {args : List (Expr Mode)}
    (h : c.wraps args context = some context') : c ≠ .race ∧ c ≠ .fallback := by
  constructor
  · rintro rfl
    cases h
  · rintro rfl
    cases h

/-- The branches of the two children of a verification. -/
theorem ChildRun.records_pair {children : List (Expr Mode)} (hE : ∀ p, EventsRecorded E p) {i j : Nat}
    (hchild : children[i]? = some child) (hchild' : children[j]? = some child')
    (h : ChildRun env E combinator child context s (.ok response) s₁)
    (h' : ChildRun env E combinator' child' context s₁ out s') (hout : Settled out) :
    ∃ forest, Records s forest s' ∧ Visits children forest := by
  obtain ⟨forest, hrecords, hvisits⟩ := h.records (hE _) (settled_ok _)
  obtain ⟨forest', hrecords', hvisits'⟩ := h'.records (hE _) hout
  exact ⟨forest ++ forest', hrecords.append hrecords',
    (hvisits.of_getElem? hchild).append (hvisits'.of_getElem? hchild')⟩

/-- A call records what it may when the plans below it do. -/
theorem Steps.records (hE : ∀ p, EventsRecorded E p) (h : Steps env E plan context s out s')
    (hout : Settled out) :
    ∃ forest, Records s forest s' ∧ Sound plan (responded out) forest := by
  cases h with
  | refused =>
    refine ⟨[], .refl s, (Visits.nil []).sound (fun _ h => absurd h List.not_mem_nil) ?_⟩
    intros
    rfl
  | atom hp h =>
    cases h with
    | answered => exact ⟨[], .refl s, .atom hp⟩
    | gateway => exact ⟨[], ⟨(List.append_nil _).symm, rfl⟩, .atom hp⟩
    | runner => exact ⟨[], ⟨(List.append_nil _).symm, rfl⟩, .atom hp⟩
  | race hp h =>
    obtain ⟨forest, hrecords, hvisits, hcount⟩ := h.records (fun c _ => hE c) hout
    refine ⟨forest, hrecords, hvisits.sound (fun _ hc => ⟨.race, _, hp, .inl hc⟩) ?_⟩
    intros
    simpa using hcount
  | fallback hp h =>
    obtain ⟨forest, hrecords, hvisits, hcount⟩ := h.records (fun c _ => hE c) hout
    refine ⟨forest, hrecords, hvisits.sound (fun _ hc => ⟨.fallback, _, hp, .inl hc⟩) ?_⟩
    intros
    exact hcount
  | chain hp h =>
    obtain ⟨forest, ⟨hevents, hnext⟩, hvisits⟩ := h.records (fun c _ => hE c) (.inl ⟨_, rfl⟩)
    exact ⟨forest, ⟨hevents, hnext⟩, hvisits.sound_children hp (by decide) (by decide)⟩
  | emptyChain hp h =>
    obtain ⟨forest, ⟨hevents, hnext⟩, hvisits⟩ := h.records (fun c _ => hE c) (.inl ⟨_, rfl⟩)
    exact ⟨forest, ⟨hevents, hnext⟩, hvisits.sound_children hp (by decide) (by decide)⟩
  | brokenChain hp h =>
    obtain ⟨forest, hrecords, hvisits⟩ := h.records (fun c _ => hE c) (returned_of_settled hout)
    exact ⟨forest, hrecords, hvisits.sound_children hp (by decide) (by decide)⟩
  | wrapped c hp hwraps hchild h =>
    obtain ⟨forest, hrecords, hvisits⟩ := h.records (hE _) hout
    obtain ⟨hrace, hfallback⟩ := Combinator.wraps_ne hwraps
    exact ⟨forest, hrecords, hvisits.sound_child hp hchild hrace hfallback⟩
  | remote hp hchild _ _ h =>
    obtain ⟨forest, ⟨hevents, hnext⟩, hvisits⟩ := h.records (hE _) hout
    exact ⟨forest, ⟨hevents, hnext⟩, hvisits.sound_child hp hchild (by decide) (by decide)⟩
  | childless => exact absurd hout (not_settled_of_abrupt trivial)
  | uncached hp hchild h =>
    obtain ⟨forest, hrecords, hvisits⟩ := h.records (hE _) hout
    exact ⟨forest, hrecords, hvisits.sound_child hp hchild (by decide) (by decide)⟩
  | @hit args child key cached out hp hchild hkey hget hres =>
    refine ⟨[.note ⟨.new "cache-hit", key.toExpr env.host.hexEncode⟩], ⟨rfl, rfl⟩, ?_⟩
    refine .mk ?_ ?_ (no_choice hp (by decide) (by decide)) ?_
    · intro e he
      cases List.mem_singleton.mp he
      exact ⟨rfl, args, hp⟩
    · intro b inner hb
      cases List.mem_singleton.mp hb
    · intro b inner hb
      cases List.mem_singleton.mp hb
  | cached hp hchild _ h =>
    obtain ⟨forest, ⟨hevents, hnext⟩, hvisits⟩ := h.records (hE _) hout
    exact ⟨forest, ⟨hevents, hnext⟩, hvisits.sound_child hp hchild (by decide) (by decide)⟩
  | unverified => exact absurd hout (not_settled_of_abrupt trivial)
  | ungenerated hp hchild h =>
    obtain ⟨forest, hrecords, hvisits⟩ := h.records (hE _) hout
    exact ⟨forest, hrecords, hvisits.sound_child hp hchild (by decide) (by decide)⟩
  | checkerless => exact absurd hout (not_settled_of_abrupt trivial)
  | unchecked hp hchild h hchild' h' =>
    obtain ⟨forest, hrecords, hvisits⟩ := h.records_pair hE hchild hchild' h' hout
    exact ⟨forest, hrecords, hvisits.sound_children hp (by decide) (by decide)⟩
  | checked hp hchild h hchild' h' =>
    obtain ⟨forest, hrecords, hvisits⟩ := h.records_pair hE hchild hchild' h' (settled_ok _)
    exact ⟨forest, hrecords, hvisits.sound_children hp (by decide) (by decide)⟩
  | undebated hp h =>
    obtain ⟨forest, hrecords, hvisits⟩ := h.records (fun c _ => hE c) (returned_of_settled hout)
    exact ⟨forest, hrecords, hvisits.sound_children hp (by decide) (by decide)⟩
  | judged hp h h' =>
    obtain ⟨sides, hsides, hvisits⟩ := h.records (fun c _ => hE c) (.inl ⟨_, rfl⟩)
    obtain ⟨judge, ⟨hevents, hnext⟩, hvisit⟩ := h'.records (hE _) hout
    refine ⟨sides ++ judge, hsides.append ⟨hevents, hnext⟩, ?_⟩
    refine ((hvisits.mono fun _ hc => .tail _ hc).append (hvisit.head _)).sound ?_
      (no_choice hp (by decide) (by decide))
    intro p hmem
    rcases List.mem_cons.mp hmem with rfl | hmem
    · exact ⟨.debate, _, hp, .inr ⟨rfl, rfl⟩⟩
    · exact ⟨.debate, _, hp, .inl hmem⟩

theorem Eval.recorded (env : PlanEnv Mode World) (depth : Nat) (plan : Expr Mode) :
    EventsRecorded (Ran (Eval.eval env depth)) plan := by
  induction depth generalizing plan with
  | zero =>
    intro context s out s' h hout
    cases h
    exact absurd hout (not_settled_of_abrupt trivial)
  | succ depth ih =>
    intro context s out s' h hout
    exact (Eval.eval_steps h).records ih hout

/-! ## Reports -/

namespace PlanSample

/-- A race of three fixtures, one slow and one failing, after an alternative that fails. -/
def traced : Expr Unit :=
  combine "fallback" [atom "fixture/fail",
    combine "race" [atom "fixture/slow-echo", atom "fixture/fail", atom "fixture/a"]]

end PlanSample

end SimAgentNet.OpenaiServer
