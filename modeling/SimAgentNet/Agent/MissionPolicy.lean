import SimAgentNet.Data.Run
import SimAgentNet.Data.SortedMap
import SimAgentNet.Kernel.Datum

/-! # Mission law

A mission plan is frozen from its terms, and requests are held against it one at a time. The plan
keeps one tool ceiling for a role, the last one given. -/

namespace SimAgentNet.Agent

inductive AuthorityLevel where
  | observe
  | organize
  | proposeLocal
  | adoptLocal
  | requestExternal
  | requestSensitive
deriving DecidableEq

namespace AuthorityLevel

def rank : AuthorityLevel → Nat
  | observe => 0
  | organize => 1
  | proposeLocal => 2
  | adoptLocal => 3
  | requestExternal => 4
  | requestSensitive => 5

theorem rank_injective : Function.Injective rank := by
  intro a b h
  cases a <;> cases b <;> first | rfl | cases h

instance : LinearOrder AuthorityLevel := .lift' rank rank_injective

theorem observe_le (a : AuthorityLevel) : observe ≤ a := Nat.zero_le a.rank

end AuthorityLevel

structure MissionRole where
  id : Symbol
  authority : AuthorityLevel
deriving DecidableEq

structure Placement where
  role : Symbol
  site : Symbol
deriving DecidableEq

structure ToolCeiling where
  role : Symbol
  tools : SortedSet Symbol

inductive CrewTopology where
  | solo
  | speculateVerify
  | threeTable
  | judgeJury
  | placementMarket
deriving DecidableEq

inductive MissionVeto where
  | deterministicVerification
  | sourceCheck
  | capabilityRefusal
  | privacyFence
  | budgetExhausted
  | selfWideningRole
  | selfSelectedJudge
  | hiddenAdjacentRoomRead
  | packClosureMismatch
  | toolCeiling
  | stop
deriving DecidableEq

structure MissionRequest where
  role : Symbol
  authority : AuthorityLevel
  tool : Option Symbol
  packClosure : String
  selectedJudge : Option Symbol
  hiddenAdjacentRoomRead : Bool
  deterministicVerification : Bool
  sourceChecks : Bool
  capabilityGranted : Bool
  privacyFenceClear : Bool
  budgetRequested : Nat

inductive MissionAdmission where
  | admitLocal
  | escalate (sensitive : Bool)
  | refuse (veto : MissionVeto)
deriving DecidableEq

inductive MissionPlanError where
  | duplicateRole (role : Symbol)
  | unknownRole (role : Symbol)
  | judgeInJury (judge : Symbol)
  | emptyPackClosure
deriving DecidableEq

structure MissionPlan where
  contentId : String
  packClosure : String
  roles : SortedMap Symbol AuthorityLevel
  placements : List Placement
  toolCeilings : SortedMap Symbol (SortedSet Symbol)
  budget : Nat
  escalation : Symbol
  stop : Bool
  topology : CrewTopology
  judge : Option Symbol
  jury : SortedSet Symbol

/-- What a plan is frozen from: the arguments of `MissionPlan.freeze`. -/
structure MissionTerms where
  packClosure : String
  roles : List MissionRole
  placements : List Placement
  toolCeilings : List ToolCeiling
  budget : Nat
  escalation : Symbol
  stop : Bool
  topology : CrewTopology
  judge : Option Symbol
  jury : List Symbol

/-- How a plan is named: its debug text, and the hash of a text. -/
structure PlanNaming where
  canonical : MissionPlan → String
  fnv1a64Hex : String → String

def insertRole (roles : SortedMap Symbol AuthorityLevel) (role : MissionRole) :
    Except MissionPlanError (SortedMap Symbol AuthorityLevel) :=
  if roles.contains role.id then .error (.duplicateRole role.id)
  else .ok (roles.insert role.id role.authority)

def checkRole (roles : SortedMap Symbol AuthorityLevel) (role : Symbol) :
    Except MissionPlanError Unit :=
  if roles.contains role then .ok () else .error (.unknownRole role)

def insertCeiling (roles : SortedMap Symbol AuthorityLevel)
    (ceilings : SortedMap Symbol (SortedSet Symbol)) (ceiling : ToolCeiling) :
    Except MissionPlanError (SortedMap Symbol (SortedSet Symbol)) := do
  checkRole roles ceiling.role
  return ceilings.insert ceiling.role ceiling.tools

def checkJudge (roles : SortedMap Symbol AuthorityLevel) (jury : SortedSet Symbol) :
    Option Symbol → Except MissionPlanError Unit
  | none => .ok ()
  | some judge => do
    checkRole roles judge
    if judge ∈ jury then .error (.judgeInJury judge) else .ok ()

namespace MissionPlan

def freeze (naming : PlanNaming) (terms : MissionTerms) :
    Except MissionPlanError MissionPlan := do
  if terms.packClosure.isEmpty then .error .emptyPackClosure else
  let roles ← terms.roles.foldlM insertRole ∅
  terms.placements.forM fun placement => checkRole roles placement.role
  let ceilings ← terms.toolCeilings.foldlM (insertCeiling roles) ∅
  let jury := SortedSet.ofList terms.jury
  checkJudge roles jury terms.judge
  jury.elems.forM (checkRole roles)
  let plan : MissionPlan :=
    { contentId := ""
      packClosure := terms.packClosure
      roles := roles
      placements := terms.placements
      toolCeilings := ceilings
      budget := terms.budget
      escalation := terms.escalation
      stop := terms.stop
      topology := terms.topology
      judge := terms.judge
      jury := jury }
  return { plan with contentId := "fnv1a64:" ++ naming.fnv1a64Hex (naming.canonical plan) }

/-- The tool a request names is in the ceiling kept for its role. -/
def toolAllowed (plan : MissionPlan) (request : MissionRequest) : Bool :=
  match request.tool with
  | none => true
  | some tool =>
    match plan.toolCeilings.get? request.role with
    | none => false
    | some tools => tool ∈ tools

def admitRequest (plan : MissionPlan) (request : MissionRequest) : MissionAdmission :=
  if plan.stop then .refuse .stop
  else if !request.deterministicVerification then .refuse .deterministicVerification
  else if !request.sourceChecks then .refuse .sourceCheck
  else if !request.capabilityGranted then .refuse .capabilityRefusal
  else if !request.privacyFenceClear then .refuse .privacyFence
  else if request.budgetRequested > plan.budget then .refuse .budgetExhausted
  else if request.hiddenAdjacentRoomRead then .refuse .hiddenAdjacentRoomRead
  else if request.packClosure ≠ plan.packClosure then .refuse .packClosureMismatch
  else
    match plan.roles.get? request.role with
    | none => .refuse .selfWideningRole
    | some ceiling =>
      if request.authority > ceiling then .refuse .selfWideningRole
      else if !plan.toolAllowed request then .refuse .toolCeiling
      else if request.authority = .adoptLocal ∧ plan.topology = .judgeJury ∧
          (request.selectedJudge ≠ plan.judge ∨ request.role ∈ plan.jury) then
        .refuse .selfSelectedJudge
      else
        match request.authority with
        | .requestExternal => .escalate false
        | .requestSensitive => .escalate true
        | _ => .admitLocal

end MissionPlan

/-! ## What a frozen plan holds -/

theorem checkRole_eq_ok_iff : checkRole roles role = .ok () ↔ roles.contains role = true := by
  unfold checkRole
  split
  · exact iff_of_true rfl ‹_›
  · exact iff_of_false nofun ‹_›

theorem insertRole_eq_ok_iff : insertRole roles role = .ok roles' ↔
    roles.get? role.id = none ∧ roles' = roles.insert role.id role.authority := by
  unfold insertRole SortedMap.contains
  cases roles.get? role.id with
  | none => simp [eq_comm]
  | some authority => simp

theorem insertCeiling_eq_ok_iff : insertCeiling roles ceilings ceiling = .ok ceilings' ↔
    roles.contains ceiling.role = true ∧
      ceilings' = ceilings.insert ceiling.role ceiling.tools := by
  unfold insertCeiling
  rw [Except.bind_eq_ok_iff]
  constructor
  · rintro ⟨⟨⟩, h, h'⟩
    exact ⟨checkRole_eq_ok_iff.mp h, (Except.ok.inj h').symm⟩
  · rintro ⟨h, rfl⟩
    exact ⟨(), checkRole_eq_ok_iff.mpr h, rfl⟩

/-- The roles read in are those given, each with the authority given for it. -/
theorem foldlM_insertRole {given : List MissionRole} {id : Symbol}
    (h : given.foldlM insertRole ∅ = .ok roles) :
    roles.get? id = some authority ↔ (⟨id, authority⟩ : MissionRole) ∈ given := by
  refine Run.induct
    (P := fun given roles => ∀ id authority, roles.get? id = some authority ↔
      (⟨id, authority⟩ : MissionRole) ∈ given) ?_ ?_ h id authority
  · intro id authority
    exact iff_of_false nofun nofun
  · intro given roles role roles' ih hrole id authority
    obtain ⟨hfresh, rfl⟩ := insertRole_eq_ok_iff.mp hrole
    rw [SortedMap.get?_insert, List.mem_append, List.mem_singleton]
    split
    · subst id
      have hnew : (⟨role.id, authority⟩ : MissionRole) ∉ given := by
        rw [← ih, hfresh]
        nofun
      constructor
      · intro heq
        cases heq
        exact .inr rfl
      · intro hmem
        exact congrArg (fun r : MissionRole => some r.authority)
          (hmem.resolve_left hnew).symm
    · rw [ih]
      refine ⟨.inl, fun hmem => hmem.resolve_right ?_⟩
      rintro rfl
      contradiction

/-- The last ceiling given for a role. -/
def lastCeiling (given : List ToolCeiling) (role : Symbol) : Option (SortedSet Symbol) :=
  (given.reverse.find? fun ceiling => ceiling.role = role).map (·.tools)

/-- Of the ceilings given for a role the last is kept. -/
theorem foldlM_insertCeiling {given : List ToolCeiling}
    (h : given.foldlM (insertCeiling roles) ∅ = .ok ceilings) :
    ceilings.get? role = lastCeiling given role := by
  refine Run.induct
    (P := fun given ceilings => ∀ role, ceilings.get? role = lastCeiling given role)
    ?_ ?_ h role
  · exact fun _ => rfl
  · intro given ceilings ceiling ceilings' ih hceiling role
    obtain ⟨-, rfl⟩ := insertCeiling_eq_ok_iff.mp hceiling
    rw [SortedMap.get?_insert, ih]
    unfold lastCeiling
    rw [List.reverse_append, List.reverse_singleton, List.singleton_append]
    by_cases hrole : role = ceiling.role
    · rw [if_pos hrole, List.find?_cons_of_pos (by simp [hrole])]
      rfl
    · rw [if_neg hrole, List.find?_cons_of_neg (by simpa using Ne.symm hrole)]

/-- A ceiling is read in for a known role only. -/
theorem foldlM_insertCeiling_known {given : List ToolCeiling}
    (h : given.foldlM (insertCeiling roles) ∅ = .ok ceilings) :
    ∀ ceiling ∈ given, roles.contains ceiling.role = true := by
  refine Run.induct (P := fun given _ => ∀ ceiling ∈ given, roles.contains ceiling.role = true)
    nofun ?_ h
  intro given ceilings ceiling ceilings' ih hceiling
  rw [List.forall_mem_append, List.forall_mem_singleton]
  exact ⟨ih, (insertCeiling_eq_ok_iff.mp hceiling).1⟩

/-- What a plan takes from its terms. -/
structure Frozen (terms : MissionTerms) (plan : MissionPlan) : Prop where
  packClosure : plan.packClosure = terms.packClosure
  roles : ∀ {id authority},
    plan.roles.get? id = some authority ↔ (⟨id, authority⟩ : MissionRole) ∈ terms.roles
  toolCeilings : ∀ role, plan.toolCeilings.get? role = lastCeiling terms.toolCeilings role
  known : ∀ ceiling ∈ terms.toolCeilings, plan.roles.contains ceiling.role = true
  budget : plan.budget = terms.budget
  stop : plan.stop = terms.stop
  topology : plan.topology = terms.topology
  judge : plan.judge = terms.judge
  jury : ∀ {role}, role ∈ plan.jury ↔ role ∈ terms.jury

theorem MissionPlan.frozen (h : MissionPlan.freeze naming terms = .ok plan) :
    Frozen terms plan := by
  unfold MissionPlan.freeze at h
  obtain ⟨-, h⟩ := Except.guard_eq_ok_iff.mp h
  obtain ⟨roles, hroles, h⟩ := Except.bind_eq_ok_iff.mp h
  obtain ⟨⟨⟩, -, h⟩ := Except.bind_eq_ok_iff.mp h
  obtain ⟨ceilings, hceilings, h⟩ := Except.bind_eq_ok_iff.mp h
  obtain ⟨⟨⟩, -, h⟩ := Except.bind_eq_ok_iff.mp h
  obtain ⟨⟨⟩, -, h⟩ := Except.bind_eq_ok_iff.mp h
  cases h
  exact
    { packClosure := rfl
      roles := foldlM_insertRole hroles
      toolCeilings := fun _ => foldlM_insertCeiling hceilings
      known := foldlM_insertCeiling_known hceilings
      budget := rfl
      stop := rfl
      topology := rfl
      judge := rfl
      jury := SortedSet.mem_ofList }

/-! ## What an admitted request meets -/

def MissionAdmission.Admitted : MissionAdmission → Prop
  | .admitLocal | .escalate _ => True
  | .refuse _ => False

/-- The facts a request has to bring. -/
structure MissionRequest.Facts (request : MissionRequest) (budget : Nat) : Prop where
  deterministicVerification : request.deterministicVerification = true
  sourceChecks : request.sourceChecks = true
  capabilityGranted : request.capabilityGranted = true
  privacyFenceClear : request.privacyFenceClear = true
  budgetRequested : request.budgetRequested ≤ budget
  sameRoom : request.hiddenAdjacentRoomRead = false

/-- The condition under which the last check vetoes a judge. -/
def MissionPlan.SelfSelected (plan : MissionPlan) (request : MissionRequest) : Prop :=
  request.authority = .adoptLocal ∧ plan.topology = .judgeJury ∧
    (request.selectedJudge ≠ plan.judge ∨ request.role ∈ plan.jury)

theorem MissionAdmission.admitted_guard_iff {c : Prop} [Decidable c]
    {admission : MissionAdmission} :
    (if c then .refuse veto else admission).Admitted ↔ ¬c ∧ admission.Admitted := by
  split
  · exact iff_of_false id fun h => absurd ‹c› h.1
  · exact ⟨fun h => ⟨‹_›, h⟩, fun h => h.2⟩

theorem MissionAdmission.guard_eq_admitLocal_iff {c : Prop} [Decidable c]
    {admission : MissionAdmission} :
    (if c then .refuse veto else admission) = .admitLocal ↔ ¬c ∧ admission = .admitLocal := by
  split
  · exact iff_of_false nofun fun h => absurd ‹c› h.1
  · exact ⟨fun h => ⟨‹_›, h⟩, fun h => h.2⟩

theorem MissionPlan.admitted_iff {plan : MissionPlan} :
    (plan.admitRequest request).Admitted ↔
      plan.stop = false ∧ request.Facts plan.budget ∧
      request.packClosure = plan.packClosure ∧
      (∃ ceiling, plan.roles.get? request.role = some ceiling ∧ request.authority ≤ ceiling) ∧
      plan.toolAllowed request = true ∧ ¬plan.SelfSelected request := by
  unfold MissionPlan.admitRequest
  simp only [MissionAdmission.admitted_guard_iff, Bool.not_eq_true, Bool.not_eq_false', not_lt,
    not_not]
  constructor
  · rintro ⟨hstop, hdeterministic, hsource, hcapability, hprivacy, hbudget, hroom, hclosure, h⟩
    refine ⟨hstop, ⟨hdeterministic, hsource, hcapability, hprivacy, hbudget, hroom⟩, hclosure, ?_⟩
    cases hrole : plan.roles.get? request.role with
    | none =>
      rw [hrole] at h
      cases h
    | some ceiling =>
      simp only [hrole, MissionAdmission.admitted_guard_iff, Bool.not_eq_true', Bool.not_eq_false,
        not_lt] at h
      obtain ⟨hle, htool, hjudge, -⟩ := h
      exact ⟨⟨ceiling, rfl, hle⟩, htool, hjudge⟩
  · rintro ⟨hstop, hfacts, hclosure, ⟨ceiling, hrole, hle⟩, htool, hjudge⟩
    refine ⟨hstop, hfacts.deterministicVerification, hfacts.sourceChecks,
      hfacts.capabilityGranted, hfacts.privacyFenceClear, hfacts.budgetRequested, hfacts.sameRoom,
      hclosure, ?_⟩
    simp only [hrole, MissionAdmission.admitted_guard_iff, Bool.not_eq_true', Bool.not_eq_false,
      not_lt]
    refine ⟨hle, htool, hjudge, ?_⟩
    cases request.authority <;> exact trivial

theorem MissionPlan.toolAllowed_iff {plan : MissionPlan} :
    plan.toolAllowed request = true ↔ ∀ tool, request.tool = some tool →
      ∃ tools, plan.toolCeilings.get? request.role = some tools ∧ tool ∈ tools := by
  unfold MissionPlan.toolAllowed
  cases request.tool with
  | none => exact iff_of_true rfl nofun
  | some tool => cases plan.toolCeilings.get? request.role <;> simp

/-- An external or sensitive request is not admitted as local. -/
theorem MissionPlan.admit_ne_admitLocal {plan : MissionPlan}
    (h : request.authority = .requestExternal ∨ request.authority = .requestSensitive) :
    plan.admitRequest request ≠ .admitLocal := by
  intro hlocal
  unfold MissionPlan.admitRequest at hlocal
  simp only [MissionAdmission.guard_eq_admitLocal_iff] at hlocal
  obtain ⟨-, -, -, -, -, -, -, -, hlocal⟩ := hlocal
  cases hrole : plan.roles.get? request.role with
  | none =>
    rw [hrole] at hlocal
    cases hlocal
  | some ceiling =>
    simp only [hrole, MissionAdmission.guard_eq_admitLocal_iff] at hlocal
    obtain ⟨-, -, -, hlocal⟩ := hlocal
    obtain h | h := h
    · rw [h] at hlocal
      cases hlocal
    · rw [h] at hlocal
      cases hlocal

/-! ## The law -/

/-- The mission law for one request and what was decided on it. -/
structure Lawful (terms : MissionTerms) (request : MissionRequest)
    (admission : MissionAdmission) : Prop where
  withinRole : admission.Admitted → ∃ ceiling,
    (⟨request.role, ceiling⟩ : MissionRole) ∈ terms.roles ∧ request.authority ≤ ceiling
  withinTools : admission.Admitted → ∀ tool, request.tool = some tool →
    ∀ ceiling ∈ terms.toolCeilings, ceiling.role = request.role → tool ∈ ceiling.tools
  packClosure : admission.Admitted → request.packClosure = terms.packClosure
  facts : admission.Admitted → request.Facts terms.budget
  escalated : request.authority = .requestExternal ∨ request.authority = .requestSensitive →
    admission ≠ .admitLocal
  judged : admission.Admitted → terms.topology = .judgeJury → request.authority = .adoptLocal →
    terms.judge = some request.role

/-- The last ceiling given for a role allows no tool that an earlier one leaves out. -/
def MissionTerms.CeilingsNarrow (terms : MissionTerms) : Prop :=
  ∀ ceiling ∈ terms.toolCeilings, ∀ tools,
    lastCeiling terms.toolCeilings ceiling.role = some tools → tools ⊆ ceiling.tools

/-- Outside the jury only the named judge has the authority to adopt. -/
def MissionTerms.JudgeAlone (terms : MissionTerms) : Prop :=
  terms.topology = .judgeJury → ∀ role ∈ terms.roles, .adoptLocal ≤ role.authority →
    role.id ∈ terms.jury ∨ terms.judge = some role.id

section
variable {naming : PlanNaming} {terms : MissionTerms} {plan : MissionPlan}

/-- A request that brings the facts, with the judge of the plan selected. -/
def MissionTerms.request (terms : MissionTerms) (role : Symbol) (authority : AuthorityLevel)
    (tool : Option Symbol) : MissionRequest where
  role := role
  authority := authority
  tool := tool
  packClosure := terms.packClosure
  selectedJudge := terms.judge
  hiddenAdjacentRoomRead := false
  deterministicVerification := true
  sourceChecks := true
  capabilityGranted := true
  privacyFenceClear := true
  budgetRequested := 0

theorem Frozen.admitted_request (hplan : Frozen terms plan) (hstop : terms.stop = false)
    (hrole : (⟨role, ceiling⟩ : MissionRole) ∈ terms.roles) (hle : authority ≤ ceiling)
    (htool : plan.toolAllowed (terms.request role authority tool) = true)
    (hjury : authority = .adoptLocal → terms.topology = .judgeJury → role ∉ terms.jury) :
    (plan.admitRequest (terms.request role authority tool)).Admitted := by
  refine MissionPlan.admitted_iff.mpr ⟨hplan.stop.trans hstop, ⟨rfl, rfl, rfl, rfl, ?_, rfl⟩,
    hplan.packClosure.symm, ⟨ceiling, hplan.roles.mpr hrole, hle⟩, htool, ?_⟩
  · exact Nat.zero_le _
  · rintro ⟨hadopt, htopology, hjudge | hmem⟩
    · exact hjudge hplan.judge.symm
    · exact hjury hadopt (hplan.topology ▸ htopology) (hplan.jury.mp hmem)

theorem Frozen.lawful (hplan : Frozen terms plan)
    (h : terms.stop = true ∨ terms.CeilingsNarrow ∧ terms.JudgeAlone) (request : MissionRequest) :
    Lawful terms request (plan.admitRequest request) := by
  have hterms (hadmitted : (plan.admitRequest request).Admitted) :
      terms.CeilingsNarrow ∧ terms.JudgeAlone := by
    refine h.resolve_left fun hstop => ?_
    have hrun := (MissionPlan.admitted_iff.mp hadmitted).1
    rw [hplan.stop, hstop] at hrun
    cases hrun
  constructor
  case withinRole =>
    intro hadmitted
    obtain ⟨-, -, -, ⟨ceiling, hrole, hle⟩, -⟩ := MissionPlan.admitted_iff.mp hadmitted
    exact ⟨ceiling, hplan.roles.mp hrole, hle⟩
  case withinTools =>
    intro hadmitted tool htool ceiling hmem hrole
    obtain ⟨-, -, -, -, hallowed, -⟩ := MissionPlan.admitted_iff.mp hadmitted
    obtain ⟨tools, hlast, htools⟩ := MissionPlan.toolAllowed_iff.mp hallowed tool htool
    rw [hplan.toolCeilings, ← hrole] at hlast
    exact (hterms hadmitted).1 ceiling hmem tools hlast tool htools
  case packClosure =>
    intro hadmitted
    obtain ⟨-, -, hclosure, -⟩ := MissionPlan.admitted_iff.mp hadmitted
    exact hclosure.trans hplan.packClosure
  case facts =>
    intro hadmitted
    obtain ⟨-, hfacts, -⟩ := MissionPlan.admitted_iff.mp hadmitted
    exact hplan.budget ▸ hfacts
  case escalated => exact MissionPlan.admit_ne_admitLocal
  case judged =>
    intro hadmitted htopology hadopt
    obtain ⟨-, -, -, ⟨ceiling, hrole, hle⟩, -, hjudge⟩ := MissionPlan.admitted_iff.mp hadmitted
    refine ((hterms hadmitted).2 htopology _ (hplan.roles.mp hrole) (hadopt ▸ hle)).resolve_left
      fun hmem => ?_
    exact hjudge ⟨hadopt, hplan.topology.trans htopology, .inr (hplan.jury.mpr hmem)⟩

theorem Frozen.ceilingsNarrow (hplan : Frozen terms plan) (hstop : terms.stop = false)
    (h : ∀ request, Lawful terms request (plan.admitRequest request)) : terms.CeilingsNarrow := by
  intro ceiling hmem tools hlast tool htool
  obtain ⟨authority, hrole⟩ := SortedMap.contains_iff.mp (hplan.known ceiling hmem)
  have hadmitted :
      (plan.admitRequest (terms.request ceiling.role .observe (some tool))).Admitted := by
    refine hplan.admitted_request hstop (hplan.roles.mp hrole) (AuthorityLevel.observe_le _) ?_
      nofun
    refine MissionPlan.toolAllowed_iff.mpr fun tool' heq => ⟨tools, ?_, ?_⟩
    · exact (hplan.toolCeilings _).trans hlast
    · cases heq
      exact htool
  exact (h _).withinTools hadmitted tool rfl ceiling hmem rfl

theorem Frozen.judgeAlone (hplan : Frozen terms plan) (hstop : terms.stop = false)
    (h : ∀ request, Lawful terms request (plan.admitRequest request)) : terms.JudgeAlone := by
  intro htopology role hrole hle
  by_cases hjury : role.id ∈ terms.jury
  · exact .inl hjury
  · refine .inr ((h (terms.request role.id .adoptLocal none)).judged ?_ htopology rfl)
    exact hplan.admitted_request hstop hrole hle rfl fun _ _ => hjury

/-- Every request is decided by the law exactly when the plan is stopped, or its ceilings narrow
and only its judge may adopt. -/
theorem lawful_iff (h : MissionPlan.freeze naming terms = .ok plan) :
    (∀ request, Lawful terms request (plan.admitRequest request)) ↔
      terms.stop = true ∨ terms.CeilingsNarrow ∧ terms.JudgeAlone := by
  have hplan := MissionPlan.frozen h
  refine ⟨fun hlawful => ?_, hplan.lawful⟩
  by_cases hstop : terms.stop = true
  · exact .inl hstop
  · rw [Bool.not_eq_true] at hstop
    exact .inr ⟨hplan.ceilingsNarrow hstop hlawful, hplan.judgeAlone hstop hlawful⟩

end

namespace MissionSample

def naming : PlanNaming where
  canonical plan := plan.packClosure
  fnv1a64Hex _ := "cbf29ce484222325"

def judge : Symbol := .new "judge"
def aide : Symbol := .new "aide"
def juror : Symbol := .new "juror"

/-- A judge and an aide with the same authority, and a jury of one. -/
def terms : MissionTerms where
  packClosure := "pack"
  roles := [⟨judge, .adoptLocal⟩, ⟨aide, .adoptLocal⟩, ⟨juror, .proposeLocal⟩]
  placements := []
  toolCeilings := [⟨aide, .ofList [.new "read"]⟩, ⟨aide, .ofList [.new "write"]⟩]
  budget := 8
  escalation := .new "gate"
  stop := false
  topology := .judgeJury
  judge := some judge
  jury := [juror]

def adopt : MissionRequest := terms.request aide .adoptLocal none
def write : MissionRequest := terms.request aide .observe (some (.new "write"))

/-- The aide adopts by naming the judge, and uses a tool that its first ceiling leaves out. -/
theorem aide_admitted :
    (MissionPlan.freeze naming terms).map
        (fun plan => (plan.admitRequest adopt, plan.admitRequest write)) =
      .ok (.admitLocal, .admitLocal) ∧
    ¬Lawful terms adopt .admitLocal ∧ ¬Lawful terms write .admitLocal := by
  refine ⟨by decide +kernel, fun h => ?_, fun h => ?_⟩
  · exact absurd (h.judged trivial rfl rfl) (by decide)
  · exact absurd (h.withinTools trivial _ rfl ⟨aide, .ofList [.new "read"]⟩ List.mem_cons_self rfl)
      (by decide +kernel)

def judgeOnly : MissionTerms :=
  { terms with roles := [⟨judge, .adoptLocal⟩], toolCeilings := [], jury := [] }

theorem judgeOnly_lawful : ∃ plan, MissionPlan.freeze naming judgeOnly = .ok plan ∧
    ∀ request, Lawful judgeOnly request (plan.admitRequest request) := by
  refine ⟨_, rfl, (lawful_iff rfl).mpr (.inr ⟨nofun, ?_⟩)⟩
  intro _ role hrole _
  cases List.mem_singleton.mp hrole
  exact .inr rfl

end MissionSample

end SimAgentNet.Agent
