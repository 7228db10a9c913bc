import SimAgentNet.Data.SortedMap
import SimAgentNet.Data.Effect
import SimAgentNet.Kernel.Expr

/-! # Continuity sessions

The plan of a session and its check, the pure reducer of events (`apply`), the reader of a journal
(`rebuild`) and the writer (`MemoryJournal.accept`). The text of a kernel error with a given
message is a parameter. Counters, times and lengths are natural numbers. -/

namespace SimAgentNet.Continuity

/-! ## Plans -/

inductive NetworkPolicy where
  | offline
  | allowListed
deriving DecidableEq

structure RoleDemand where
  role : Symbol
  root : Bool
  requiredServices : List Symbol
  fallbacks : List Symbol
deriving DecidableEq

structure ContinuityPlan where
  schemaVersion : Nat
  planId : Symbol
  roles : List RoleDemand
  availableServices : List Symbol
  maxFreshness : Nat
  retentionTurns : Nat
  disclosure : List Symbol
  network : NetworkPolicy
  allowedNetworkRoutes : List Symbol
deriving DecidableEq

/-- Two names are written alike. -/
def repeats (names : List Symbol) : Prop := ¬(names.map Symbol.display).Nodup

instance (names : List Symbol) : Decidable (repeats names) := inferInstanceAs (Decidable (¬_))

/-- A name is written like one of the list. -/
def names (list : List Symbol) (name : Symbol) : Prop := name.display ∈ list.map Symbol.display

instance (list : List Symbol) (name : Symbol) : Decidable (names list name) :=
  inferInstanceAs (Decidable (_ ∈ _))

namespace ContinuityPlan
variable (plan : ContinuityPlan)

/-- The checks of one role. -/
def validateRole (role : RoleDemand) : Except String Unit :=
  if repeats role.fallbacks ∨ names role.fallbacks role.role then
    .error "fallbacks must be unique and cannot name their own role"
  else if ∃ s ∈ role.requiredServices, ¬names plan.availableServices s then
    .error "required-service closure is incomplete"
  else if ∃ f ∈ role.fallbacks, ¬names (plan.roles.map (·.role)) f then
    .error "fallback closure is incomplete"
  else .ok ()

def validate : Except String Unit :=
  if plan.schemaVersion ≠ 1 then .error "unsupported continuity plan version"
  else if plan.maxFreshness = 0 ∨ plan.retentionTurns = 0 then
    .error "freshness and retention bounds must be positive"
  else if (plan.roles.filter (·.root)).length ≠ 1 then
    .error "continuity plan requires exactly one root"
  else if repeats (plan.roles.map (·.role)) then .error "continuity roles must be unique"
  else if repeats plan.availableServices then .error "available services must be unique"
  else if repeats plan.disclosure then .error "disclosure labels must be unique"
  else if repeats plan.allowedNetworkRoutes ∨
      (plan.network = .offline ∧ plan.allowedNetworkRoutes ≠ []) ∨
      (plan.network = .allowListed ∧ plan.allowedNetworkRoutes = []) then
    .error "network route allow-list does not match network policy"
  else plan.roles.forM plan.validateRole

end ContinuityPlan

/-! ## Events and turns -/

structure RouteLease where
  route : Symbol
  observedAt : Nat
  expiresAt : Nat
  services : List Symbol
  networked : Bool
deriving DecidableEq

structure ContinuityEvent (Mode : Type) where
  eventId : Symbol
  sequence : Nat
  logicalTime : Nat
  kind : Symbol
  role : Symbol
  lease : Option RouteLease
  payload : Expr Mode
  disclosure : Option Symbol
deriving DecidableEq

structure ContinuityIntent (Mode : Type) where
  kind : Symbol
  role : Symbol
  route : Option Symbol
  detail : Expr Mode
deriving DecidableEq

structure ContinuityRefusal (Mode : Type) where
  code : Symbol
  detail : Expr Mode
deriving DecidableEq

structure ContinuityTurn (Mode : Type) where
  sequence : Nat
  eventId : Symbol
  logicalTime : Nat
  event : ContinuityEvent Mode
  intents : List (ContinuityIntent Mode)
deriving DecidableEq

/-- The cache derived from the accepted turns. -/
structure ContinuityState (Mode : Type) where
  turns : List (ContinuityTurn Mode)
  cancelled : Bool
  nextSequence : Nat
  seen : SortedSet String
deriving DecidableEq

def ContinuityState.default : ContinuityState Mode := ⟨[], false, 0, ∅⟩

/-! ## The reducer -/

def refusal (code detail : String) : ContinuityRefusal Mode := ⟨.new code, .string detail⟩

def intent (kind : String) (role : Symbol) (route : Option Symbol) : ContinuityIntent Mode :=
  ⟨.new kind, role, route, .nil⟩

/-- The intents of an event whose role is known. -/
def eventIntents (plan : ContinuityPlan) (role : RoleDemand) (event : ContinuityEvent Mode) :
    Except (ContinuityRefusal Mode) (List (ContinuityIntent Mode)) :=
  match event.kind.display with
  | "cancel" => .ok [intent "cancelled" event.role none]
  | "candidate" =>
    match event.lease with
    | none => .error (refusal "missing-lease" "candidate requires route lease")
    | some lease =>
      if lease.observedAt > lease.expiresAt ∨ lease.expiresAt < event.logicalTime ∨
          lease.observedAt > event.logicalTime ∨
          event.logicalTime - lease.observedAt > plan.maxFreshness then
        .error (refusal "stale-route" "route lease is outside freshness bound")
      else if lease.networked ∧
          (plan.network = .offline ∨ lease.route ∉ plan.allowedNetworkRoutes) then
        .error (refusal "network-policy" "network route is forbidden")
      else if ∃ s ∈ role.requiredServices, s ∉ lease.services then
        .error (refusal "service-closure" "candidate lacks a required service")
      else .ok [intent "consider-route" event.role (some lease.route)]
  | _ => .ok [intent "record" event.role none]

/-- What the plan makes of an event by itself: its intents, or why it is refused. -/
def intentsOf (plan : ContinuityPlan) (event : ContinuityEvent Mode) :
    Except (ContinuityRefusal Mode) (List (ContinuityIntent Mode)) :=
  match plan.roles.find? (·.role = event.role) with
  | none => .error (refusal "unknown-role" "role is not in plan")
  | some role =>
    if ∃ label ∈ event.disclosure, label ∉ plan.disclosure then
      .error (refusal "disclosure-policy" "payload disclosure is forbidden")
    else eventIntents plan role event

def ContinuityEvent.cancels (event : ContinuityEvent Mode) : Bool := event.kind.display == "cancel"

def ContinuityEvent.turn (event : ContinuityEvent Mode) (intents : List (ContinuityIntent Mode)) :
    ContinuityTurn Mode where
  sequence := event.sequence
  eventId := event.eventId
  logicalTime := event.logicalTime
  event
  intents

/-- Drops the oldest turns beyond the retention bound. -/
def retain (plan : ContinuityPlan) (turns : List (ContinuityTurn Mode)) :
    List (ContinuityTurn Mode) :=
  if turns.length > plan.retentionTurns then turns.drop (turns.length - plan.retentionTurns)
  else turns

/-- The state after an accepted event. -/
def ContinuityState.push (plan : ContinuityPlan) (state : ContinuityState Mode)
    (event : ContinuityEvent Mode) (intents : List (ContinuityIntent Mode)) :
    ContinuityState Mode where
  turns := retain plan (state.turns ++ [event.turn intents])
  cancelled := event.cancels
  nextSequence := state.nextSequence + 1
  seen := state.seen.insert event.eventId.display

section
variable (errorText : String → String)

/-- Applies one event; an event seen before changes nothing. -/
def apply (plan : ContinuityPlan) (state : ContinuityState Mode) (event : ContinuityEvent Mode) :
    Except (ContinuityRefusal Mode) (ContinuityState Mode) := do
  plan.validate.mapError fun e => refusal "invalid-plan" (errorText e)
  if event.eventId.display ∈ state.seen then .ok state
  else if event.sequence ≠ state.nextSequence then
    .error (refusal (if event.sequence < state.nextSequence then "stale-event"
      else "reordered-event") "event sequence is not next")
  else if state.cancelled then .error (refusal "post-cancel-event" "session is cancelled")
  else do
    let intents ← intentsOf plan event
    return state.push plan event intents

variable [DecidableEq Mode]

/-- One turn of the loop of `rebuild`. -/
def rebuildTurn (plan : ContinuityPlan) (state : ContinuityState Mode)
    (turn : ContinuityTurn Mode) : Except (ContinuityRefusal Mode) (ContinuityState Mode) := do
  let next ← apply errorText plan state turn.event
  if next.turns.getLast? ≠ some turn then
    .error (refusal "journal-mismatch" "stored turn differs from pure reduction")
  else .ok next

/-- The state of a journal, from an empty cache. -/
def rebuild (plan : ContinuityPlan) (turns : List (ContinuityTurn Mode)) :
    Except (ContinuityRefusal Mode) (ContinuityState Mode) :=
  turns.foldlM (rebuildTurn errorText plan) .default

end

/-! ## The journal -/

structure JournalRow (Mode : Type) where
  expectedLen : Nat
  turn : ContinuityTurn Mode
deriving DecidableEq

inductive JournalError (Mode : Type) where
  | fenceConflict
  | refused (refusal : ContinuityRefusal Mode)
  | stateMismatch
deriving DecidableEq

structure MemoryJournal (Mode : Type) where
  rows : List (ContinuityTurn Mode)
deriving DecidableEq

namespace MemoryJournal

def default : MemoryJournal Mode := ⟨[]⟩

def turns (j : MemoryJournal Mode) : List (ContinuityTurn Mode) := j.rows

def appendFenced (row : JournalRow Mode) : Effect (Halt (JournalError Mode)) (MemoryJournal Mode) Unit := do
  let j ← .get
  if j.rows.length ≠ row.expectedLen then .fail (.failure .fenceConflict)
  else .modify fun j => ⟨j.rows ++ [row.turn]⟩

variable [DecidableEq Mode] (errorText : String → String)

/-- The end of `accept`: a changed state appends its last turn. -/
def record (state next : ContinuityState Mode) :
    Effect (Halt (JournalError Mode)) (MemoryJournal Mode) (ContinuityState Mode) := do
  let j ← .get
  if next = state then return next
  else match next.turns.getLast? with
    | none => .fail .panicked
    | some turn => do
      appendFenced ⟨j.rows.length, turn⟩
      return next

def accept (plan : ContinuityPlan) (state : ContinuityState Mode) (event : ContinuityEvent Mode) :
    Effect (Halt (JournalError Mode)) (MemoryJournal Mode) (ContinuityState Mode) := do
  let rebuilt ← .observe fun j =>
    (rebuild errorText plan j.turns).mapError (.failure ∘ .refused)
  if rebuilt ≠ state then .fail (.failure .stateMismatch)
  else do
    let next ← .ofExcept ((apply errorText plan state event).mapError (.failure ∘ .refused))
    record state next

end MemoryJournal

end SimAgentNet.Continuity
