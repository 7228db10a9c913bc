import SimAgentNet.Data.Run
import SimAgentNet.Data.Text

/-! # Provider fan-out

Concurrent calls of one fan-out engine. A call plans its seats in order, with a lease on each seat
that it acquires, and then lands its rows in the same order. The steps of the calls are interleaved
as the lock of the leases allows; the clock is read under the lock. -/

namespace SimAgentNet.Provider

/-! ## Data -/

inductive FanoutMode where
  | all
  | firstGood
  | quorum (required : Nat)
deriving DecidableEq

inductive FanoutStatus where
  | parallel
  | serialized
  | unavailable
deriving DecidableEq

structure FanoutSeat where
  seatId : String
  maxInFlight : Option Nat
deriving DecidableEq

/-- What a planned request is split into: a dispatch with a landing, or nothing. -/
inductive PlanKind where
  | parallel
  | serialized
deriving DecidableEq

structure PlannedRow where
  seat : String
  status : FanoutStatus
  plan : Option PlanKind
  error : Option String
deriving DecidableEq

/-- An error is known by its message. -/
structure FanoutRow (Response : Type) where
  seat : String
  status : FanoutStatus
  result : Except String Response

structure FanoutReport (Response : Type) where
  rows : List (FanoutRow Response)
  selected : Option Nat

structure LeaseState where
  inFlight : Nat := 0
  cooldownUntil : Nat := 0
deriving DecidableEq

abbrev Leases := String → LeaseState

def u64Max : Nat := 2 ^ 64 - 1

def saturatingAdd (a b : Nat) : Nat := min (a + b) u64Max

/-! ## Leases -/

def acquire (leases : Leases) (seat : String) (limit : Option Nat) (now : Nat) :
    Except String Leases :=
  let lease := leases seat
  if now < lease.cooldownUntil then
    .error ("provider seat " ++ seat ++ " is cooling down")
  else if limit.any (· ≤ lease.inFlight) then
    .error ("provider seat " ++ seat ++ " is at max in-flight")
  else
    .ok (Function.update leases seat { lease with inFlight := lease.inFlight + 1 })

/-- Whether an error starts a cooldown. -/
def isLimit (message : String) : Bool :=
  let message := (Text.utf8 message).map Text.asciiLower
  Text.containsBytes message (Text.utf8 "rate limit") ||
    Text.containsBytes message (Text.utf8 "quota")

def limited {Response : Type} : Except String Response → Bool
  | .error message => isLimit message
  | .ok _ => false

def release {Response : Type} (cooldown : Nat) (leases : Leases) (seat : String)
    (result : Except String Response) (now : Nat) : Leases :=
  let lease := leases seat
  Function.update leases seat
    { inFlight := lease.inFlight - 1
      cooldownUntil :=
        if limited result then saturatingAdd now (min cooldown u64Max) else lease.cooldownUntil }

def releasePlanning (leases : Leases) (seat : String) : Leases :=
  let lease := leases seat
  Function.update leases seat { lease with inFlight := lease.inFlight - 1 }

/-! ## One call -/

structure Request where
  seats : List FanoutSeat
  mode : FanoutMode
  parallel : Bool

/-- How far a call has come: the seat that it has acquired and not planned, the rows that are
planned and the rows that have landed. -/
structure Call (Response : Type) where
  acquired : Option FanoutSeat := none
  planned : List PlannedRow := []
  rows : List (FanoutRow Response) := []

/-- How a planned row ends. -/
inductive Ending (Response : Type) where
  | executed (result : Except String Response)
  | landed (result : Except String Response)
  | dispatchFailed (error : String)
  | lost

def PlannedRow.result {Response : Type} (row : PlannedRow) (ending : Ending Response) :
    Option (Except String Response) :=
  match row.error with
  | some error => some (.error error)
  | none =>
    match row.plan, ending with
    | some .serialized, .executed result => some result
    | some .parallel, .landed result => some result
    | some .parallel, .dispatchFailed error => some (.error error)
    | some .parallel, .lost => some (.error "provider fan-out lost dispatch outcome")
    | _, _ => none

inductive Action (Response : Type) where
  | acquire (now : Nat)
  | plan (result : Except String PlanKind)
  | land (now : Nat) (ending : Ending Response)

/-- What happens to a lease: it is given, or given back by a row that failed at a limit. -/
inductive LeaseEvent where
  | acquired (seat : String) (now : Nat)
  | limited (seat : String) (now : Nat)
deriving DecidableEq

def FanoutMode.required (mode : FanoutMode) (rows : Nat) : Nat :=
  match mode with
  | .all => rows
  | .firstGood => 1
  | .quorum required => required

def FanoutRow.isOk {Response : Type} (row : FanoutRow Response) : Bool := row.result.isOk

/-- The indexes of the rows that succeeded. -/
def successes {Response : Type} (rows : List (FanoutRow Response)) : List Nat :=
  (rows.zipIdx.filter (·.1.isOk)).map (·.2)

def report {Response : Type} (mode : FanoutMode) (rows : List (FanoutRow Response)) :
    FanoutReport Response where
  rows := rows
  selected :=
    if mode.required rows.length ≤ (successes rows).length then (successes rows).head? else none

/-! ## All calls -/

/-- The leases and the calls. The rows that hold a lease, in the order in which they acquired it and
the account of the leases are read by no step. -/
structure System (ι Response : Type) where
  leases : Leases := fun _ => {}
  calls : ι → Call Response := fun _ => {}
  held : List (ι × Nat) := []
  log : List LeaseEvent := []

section
variable {ι Response : Type} [DecidableEq ι] (cooldown : Nat) (requests : ι → Request)

def pushPlanned (call : Call Response) (row : PlannedRow) : Call Response :=
  { call with acquired := none, planned := call.planned ++ [row] }

def acquireStep (s : System ι Response) (i : ι) (now : Nat) : Option (System ι Response) :=
  let call := s.calls i
  if call.acquired.isSome then none
  else
    match (requests i).seats[call.planned.length]? with
    | none => none
    | some seat =>
      match acquire s.leases seat.seatId seat.maxInFlight now with
      | .error error => some { s with
          calls := Function.update s.calls i
            (pushPlanned call ⟨seat.seatId, .unavailable, none, some error⟩) }
      | .ok leases => some
          { leases
            calls := Function.update s.calls i { call with acquired := some seat }
            held := s.held ++ [(i, call.planned.length)]
            log := s.log ++ [.acquired seat.seatId now] }

def planStep (s : System ι Response) (i : ι) (result : Except String PlanKind) :
    Option (System ι Response) :=
  let call := s.calls i
  match call.acquired with
  | none => none
  | some seat =>
    match result with
    | .ok .parallel =>
      let status := if (requests i).parallel then FanoutStatus.parallel else .serialized
      some { s with
        calls := Function.update s.calls i
          (pushPlanned call ⟨seat.seatId, status, some .parallel, none⟩) }
    | .ok .serialized => some { s with
        calls := Function.update s.calls i
          (pushPlanned call ⟨seat.seatId, .serialized, some .serialized, none⟩) }
    | .error error => some { s with
        leases := releasePlanning s.leases seat.seatId
        calls := Function.update s.calls i
          (pushPlanned call ⟨seat.seatId, .unavailable, none, some error⟩)
        held := s.held.erase (i, call.planned.length) }

/-- The next row of a call whose seats are all planned. -/
def landStep (s : System ι Response) (i : ι) (now : Nat) (ending : Ending Response) :
    Option (System ι Response) :=
  let call := s.calls i
  if call.planned.length ≠ (requests i).seats.length then none
  else
    match call.planned[call.rows.length]? with
    | none => none
    | some row =>
      match row.result ending with
      | none => none
      | some result =>
        let landed := { call with rows := call.rows ++ [⟨row.seat, row.status, result⟩] }
        let calls := Function.update s.calls i landed
        if row.status = .unavailable then some { s with calls }
        else some
          { leases := release cooldown s.leases row.seat result now
            calls
            held := s.held.erase (i, call.rows.length)
            log := if limited result then s.log ++ [.limited row.seat now] else s.log }

def step (s : System ι Response) (i : ι) : Action Response → Option (System ι Response)
  | .acquire now => acquireStep requests s i now
  | .plan result => planStep requests s i result
  | .land now ending => landStep cooldown requests s i now ending

/-- The states that the calls reach from the start. -/
inductive Reachable : System ι Response → Prop where
  | init : Reachable {}
  | step (h : Reachable s) (i : ι) (action : Action Response)
      (hstep : step cooldown requests s i action = some s') : Reachable s'

end

/-! ## What a step does -/

section
variable {ι Response : Type} [DecidableEq ι] {cooldown : Nat} {requests : ι → Request}

/-- The kinds of steps of a call. -/
inductive Steps (cooldown : Nat) (requests : ι → Request) (s : System ι Response) (i : ι) :
    System ι Response → Prop where
  | refused (seat : FanoutSeat) (error : String) (hidle : (s.calls i).acquired = none)
    (hseat : (requests i).seats[(s.calls i).planned.length]? = some seat) :
    Steps cooldown requests s i { s with
      calls := Function.update s.calls i
        (pushPlanned (s.calls i) ⟨seat.seatId, .unavailable, none, some error⟩) }
  | acquired (seat : FanoutSeat) (now : Nat) (hidle : (s.calls i).acquired = none)
    (hseat : (requests i).seats[(s.calls i).planned.length]? = some seat)
    (hcooldown : (s.leases seat.seatId).cooldownUntil ≤ now)
    (hlimit : ∀ limit, seat.maxInFlight = some limit → (s.leases seat.seatId).inFlight < limit) :
    Steps cooldown requests s i
      { leases := Function.update s.leases seat.seatId
          { s.leases seat.seatId with inFlight := (s.leases seat.seatId).inFlight + 1 }
        calls := Function.update s.calls i { s.calls i with acquired := some seat }
        held := s.held ++ [(i, (s.calls i).planned.length)]
        log := s.log ++ [.acquired seat.seatId now] }
  | planned (seat : FanoutSeat) (row : PlannedRow) (hacquired : (s.calls i).acquired = some seat)
    (hrow : row.seat = seat.seatId) (hstatus : row.status ≠ .unavailable) :
    Steps cooldown requests s i { s with
      calls := Function.update s.calls i (pushPlanned (s.calls i) row) }
  | planFailed (seat : FanoutSeat) (error : String)
    (hacquired : (s.calls i).acquired = some seat) :
    Steps cooldown requests s i { s with
      leases := releasePlanning s.leases seat.seatId
      calls := Function.update s.calls i
        (pushPlanned (s.calls i) ⟨seat.seatId, .unavailable, none, some error⟩)
      held := s.held.erase (i, (s.calls i).planned.length) }
  | passed (row : PlannedRow) (result : Except String Response)
    (hplanned : (s.calls i).planned.length = (requests i).seats.length)
    (hrow : (s.calls i).planned[(s.calls i).rows.length]? = some row)
    (hstatus : row.status = .unavailable) :
    Steps cooldown requests s i { s with
      calls := Function.update s.calls i
        { s.calls i with rows := (s.calls i).rows ++ [⟨row.seat, row.status, result⟩] } }
  | released (row : PlannedRow) (result : Except String Response) (now : Nat)
    (hplanned : (s.calls i).planned.length = (requests i).seats.length)
    (hrow : (s.calls i).planned[(s.calls i).rows.length]? = some row)
    (hstatus : row.status ≠ .unavailable) :
    Steps cooldown requests s i
      { leases := release cooldown s.leases row.seat result now
        calls := Function.update s.calls i
          { s.calls i with rows := (s.calls i).rows ++ [⟨row.seat, row.status, result⟩] }
        held := s.held.erase (i, (s.calls i).rows.length)
        log := if limited result then s.log ++ [.limited row.seat now] else s.log }

theorem steps_of_step {s s' : System ι Response} {i : ι} {action : Action Response}
    (h : step cooldown requests s i action = some s') : Steps cooldown requests s i s' := by
  cases action with
  | acquire now =>
    simp only [step, acquireStep] at h
    split at h
    · cases h
    · rename_i hidle
      have hidle : (s.calls i).acquired = none := by simpa using hidle
      split at h
      · cases h
      · rename_i seat hseat
        cases hacquire : acquire s.leases seat.seatId seat.maxInFlight now with
        | error error =>
          rw [hacquire] at h
          cases h
          exact .refused seat error hidle hseat
        | ok leases =>
          rw [hacquire] at h
          cases h
          simp only [acquire] at hacquire
          split at hacquire
          · cases hacquire
          · rename_i hcooldown
            split at hacquire
            · cases hacquire
            · rename_i hlimit
              cases hacquire
              refine .acquired seat now hidle hseat (not_lt.mp hcooldown) fun limit hsome => ?_
              rw [hsome] at hlimit
              simpa using hlimit
  | plan result =>
    simp only [step, planStep] at h
    split at h
    · cases h
    · rename_i seat hacquired
      cases result with
      | error error =>
        cases h
        exact .planFailed seat error hacquired
      | ok kind =>
        cases kind with
        | parallel =>
          cases h
          refine .planned seat _ hacquired rfl ?_
          dsimp only
          split
          · exact nofun
          · exact nofun
        | serialized =>
          cases h
          exact .planned seat _ hacquired rfl nofun
  | land now ending =>
    simp only [step, landStep] at h
    split at h
    · cases h
    · rename_i hplanned
      split at h
      · cases h
      · rename_i row hrow
        split at h
        · cases h
        · rename_i result _
          split at h
          · rename_i hstatus
            cases h
            exact .passed row result (not_ne_iff.mp hplanned) hrow hstatus
          · rename_i hstatus
            cases h
            exact .released row result now (not_ne_iff.mp hplanned) hrow hstatus

/-! ## The rows of a call -/

/-- The rows of a call follow its seats. -/
structure CallOk (request : Request) (call : Call Response) : Prop where
  planned : call.planned.map (·.seat) =
    (request.seats.map (·.seatId)).take call.planned.length
  acquired : ∀ seat, call.acquired = some seat → request.seats[call.planned.length]? = some seat
  rows : call.rows.map (fun row => (row.seat, row.status)) =
    (call.planned.map fun row => (row.seat, row.status)).take call.rows.length
  landing : call.rows = [] ∨ call.planned.length = request.seats.length

theorem CallOk.init (request : Request) : CallOk request ({} : Call Response) where
  planned := rfl
  acquired := nofun
  rows := rfl
  landing := .inl rfl

theorem CallOk.rows_eq_nil {request : Request} {call : Call Response} {seat : FanoutSeat}
    (h : CallOk request call) (hseat : request.seats[call.planned.length]? = some seat) :
    call.rows = [] := by
  rcases h.landing with hrows | hlength
  · exact hrows
  · rw [hlength, List.getElem?_length] at hseat
    cases hseat

theorem CallOk.acquired_eq_none {request : Request} {call : Call Response}
    (h : CallOk request call) (hplanned : call.planned.length = request.seats.length) :
    call.acquired = none := by
  cases hacquired : call.acquired with
  | none => rfl
  | some seat =>
    have hseat := h.acquired seat hacquired
    rw [hplanned, List.getElem?_length] at hseat
    cases hseat

theorem CallOk.pushPlanned {request : Request} {call : Call Response} {seat : FanoutSeat}
    {row : PlannedRow} (h : CallOk request call)
    (hseat : request.seats[call.planned.length]? = some seat) (hrow : row.seat = seat.seatId) :
    CallOk request (pushPlanned call row) where
  planned := by
    have hnext : (request.seats.map (·.seatId))[call.planned.length]? = some seat.seatId := by
      rw [List.getElem?_map, hseat]
      rfl
    rw [Provider.pushPlanned, List.map_append, h.planned, List.map_singleton, hrow,
      List.length_append, List.length_singleton, List.take_add_one, hnext]
    rfl
  acquired := nofun
  rows := by
    rw [Provider.pushPlanned, h.rows_eq_nil hseat]
    rfl
  landing := .inl (h.rows_eq_nil hseat)

theorem CallOk.land {request : Request} {call : Call Response} {row : PlannedRow}
    {result : Except String Response} (h : CallOk request call)
    (hplanned : call.planned.length = request.seats.length)
    (hrow : call.planned[call.rows.length]? = some row) :
    CallOk request { call with rows := call.rows ++ [⟨row.seat, row.status, result⟩] } where
  planned := h.planned
  acquired := h.acquired
  rows := by
    have hnext : (call.planned.map fun row => (row.seat, row.status))[call.rows.length]? =
        some (row.seat, row.status) := by
      rw [List.getElem?_map, hrow]
      rfl
    rw [List.map_append, h.rows, List.length_append, List.length_singleton, List.take_add_one,
      hnext]
    rfl
  landing := .inr hplanned

/-- The row of the call at the index holds a lease: it is acquired and has not landed. -/
def Holds (call : Call Response) (index : Nat) : Prop :=
  (call.acquired.isSome = true ∧ index = call.planned.length) ∨
    (call.rows.length ≤ index ∧ ∃ row, call.planned[index]? = some row ∧ row.status ≠ .unavailable)

theorem holds_refused {call : Call Response} {row : PlannedRow} {index : Nat}
    (hidle : call.acquired = none) (hstatus : row.status = .unavailable) :
    Holds (pushPlanned call row) index ↔ Holds call index := by
  simp only [Holds, pushPlanned]
  grind

theorem holds_planFailed {call : Call Response} {row : PlannedRow} {index : Nat}
    (hstatus : row.status = .unavailable) :
    Holds (pushPlanned call row) index ↔ Holds call index ∧ index ≠ call.planned.length := by
  simp only [Holds, pushPlanned]
  grind

theorem holds_acquired {call : Call Response} {seat : FanoutSeat} {index : Nat}
    (hidle : call.acquired = none) :
    Holds { call with acquired := some seat } index ↔
      Holds call index ∨ index = call.planned.length := by
  simp only [Holds]
  grind

theorem holds_pushPlanned {call : Call Response} {row : PlannedRow} {index : Nat}
    (hacquired : call.acquired.isSome = true) (hrows : call.rows = [])
    (hstatus : row.status ≠ .unavailable) :
    Holds (pushPlanned call row) index ↔ Holds call index := by
  simp only [Holds, pushPlanned]
  grind

theorem holds_landed {call : Call Response} {row : FanoutRow Response} {index : Nat}
    (hacquired : call.acquired = none) :
    Holds { call with rows := call.rows ++ [row] } index ↔
      Holds call index ∧ index ≠ call.rows.length := by
  simp only [Holds]
  grind

/-! ## The leases -/

section
variable (requests : ι → Request)

/-- The seat of a row. -/
def seatOf (hold : ι × Nat) : Option String :=
  ((requests hold.1).seats.map (·.seatId))[hold.2]?

/-- The number of rows that hold a lease on the seat. -/
def holding (seat : String) (held : List (ι × Nat)) : Nat :=
  held.countP fun hold => seatOf requests hold = some seat

/-- When it was acquired, each row was within the limit of its seat. -/
def Within (held : List (ι × Nat)) : Prop :=
  ∀ before hold after, held = before ++ hold :: after → ∀ (seat : FanoutSeat) limit,
    (requests hold.1).seats[hold.2]? = some seat → seat.maxInFlight = some limit →
      holding requests seat.seatId before < limit

end

def coolStep (cooldown : Nat) (seat : String) (till : Nat) : LeaseEvent → Nat
  | .limited other now => if other = seat then saturatingAdd now (min cooldown u64Max) else till
  | .acquired .. => till

/-- When the seat can be acquired again, after an account of the leases. -/
def coolUntil (cooldown : Nat) (log : List LeaseEvent) (seat : String) : Nat :=
  log.foldl (coolStep cooldown seat) 0

/-- No seat was acquired before it had cooled down. -/
def Cooled (cooldown : Nat) (log : List LeaseEvent) : Prop :=
  ∀ before seat now after, log = before ++ LeaseEvent.acquired seat now :: after →
    coolUntil cooldown before seat ≤ now

structure Consistent (cooldown : Nat) (requests : ι → Request) (s : System ι Response) : Prop where
  calls : ∀ i, CallOk (requests i) (s.calls i)
  nodup : s.held.Nodup
  held : ∀ i index, (i, index) ∈ s.held ↔ Holds (s.calls i) index
  inFlight : ∀ seat, (s.leases seat).inFlight = holding requests seat s.held
  within : Within requests s.held
  cooling : ∀ seat, (s.leases seat).cooldownUntil = coolUntil cooldown s.log seat
  cooled : Cooled cooldown s.log

omit [DecidableEq ι] in
theorem Within.concat {held : List (ι × Nat)} {hold : ι × Nat} (h : Within requests held)
    (hhold : ∀ seat limit, (requests hold.1).seats[hold.2]? = some seat →
      seat.maxInFlight = some limit → holding requests seat.seatId held < limit) :
    Within requests (held ++ [hold]) := by
  intro before other after heq
  rcases List.eq_nil_or_concat after with rfl | ⟨rest, last, rfl⟩
  · obtain ⟨rfl, hsame⟩ := List.append_inj' heq rfl
    cases hsame
    exact hhold
  · rw [List.concat_eq_append, ← List.cons_append, ← List.append_assoc] at heq
    exact h before other rest (List.append_inj' heq rfl).1

theorem Within.erase {held : List (ι × Nat)} (h : Within requests held) (hold : ι × Nat) :
    Within requests (held.erase hold) := by
  intro before other after heq seat limit hseat hlimit
  by_cases hmem : hold ∈ held
  · obtain ⟨front, back, -, hheld, herase⟩ := List.exists_erase_eq hmem
    rw [herase] at heq
    rcases List.append_eq_append_iff.mp heq with ⟨middle, rfl, hback⟩ | ⟨middle, rfl, hback⟩
    · have hless := h (front ++ hold :: middle) other after (by rw [hheld, hback]; simp) seat limit
        hseat hlimit
      simp only [holding, List.countP_append, List.countP_cons] at hless ⊢
      omega
    · cases middle with
      | nil =>
        cases hback
        have hless := h (before ++ [hold]) other after (by rw [hheld]; simp) seat limit hseat hlimit
        simp only [holding, List.countP_append] at hless ⊢
        omega
      | cons first middle =>
        obtain ⟨rfl, rfl⟩ := List.cons.inj hback
        exact h before other (middle ++ hold :: back) (by rw [hheld]; simp) seat limit hseat hlimit
  · rw [List.erase_of_not_mem hmem] at heq
    exact h before other after heq seat limit hseat hlimit

theorem Cooled.concat {log : List LeaseEvent} {event : LeaseEvent} (h : Cooled cooldown log)
    (hevent : ∀ seat now, event = .acquired seat now → coolUntil cooldown log seat ≤ now) :
    Cooled cooldown (log ++ [event]) := by
  intro before seat now after heq
  rcases List.eq_nil_or_concat after with rfl | ⟨rest, last, rfl⟩
  · obtain ⟨rfl, hsame⟩ := List.append_inj' heq rfl
    exact hevent seat now (List.cons.inj hsame).1
  · rw [List.concat_eq_append, ← List.cons_append, ← List.append_assoc] at heq
    exact h before seat now rest (List.append_inj' heq rfl).1

/-- One call is changed, and the rows that hold a lease with it. -/
theorem held_update {held held' : List (ι × Nat)} {calls : ι → Call Response} {i : ι}
    {call : Call Response} (h : ∀ i index, (i, index) ∈ held ↔ Holds (calls i) index)
    (hother : ∀ j index, j ≠ i → ((j, index) ∈ held' ↔ (j, index) ∈ held))
    (hself : ∀ index, (i, index) ∈ held' ↔ Holds call index) :
    ∀ j index, (j, index) ∈ held' ↔ Holds (Function.update calls i call j) index := by
  intro j index
  by_cases hj : j = i
  · subst hj
    rw [Function.update_self, hself]
  · rw [Function.update_of_ne hj, hother j index hj, h]

theorem callOk_update {calls : ι → Call Response} {i : ι} {call : Call Response}
    (h : ∀ i, CallOk (requests i) (calls i)) (hcall : CallOk (requests i) call) :
    ∀ j, CallOk (requests j) (Function.update calls i call j) := by
  intro j
  by_cases hj : j = i
  · subst hj
    rw [Function.update_self]
    exact hcall
  · rw [Function.update_of_ne hj]
    exact h j

theorem holding_erase {held : List (ι × Nat)} {hold : ι × Nat} (h : hold ∈ held) (seat : String) :
    holding requests seat (held.erase hold) =
      holding requests seat held - if seatOf requests hold = some seat then 1 else 0 := by
  obtain ⟨front, back, -, hheld, herase⟩ := List.exists_erase_eq h
  rw [herase, hheld]
  simp only [holding, List.countP_append, List.countP_cons, decide_eq_true_eq]
  split
  · omega
  · omega

/-- The lease of a row is given back, and the row no longer holds it. -/
theorem inFlight_erase {leases : Leases} {held : List (ι × Nat)} {hold : ι × Nat} {seat : String}
    {lease : LeaseState} (h : ∀ seat, (leases seat).inFlight = holding requests seat held)
    (hmem : hold ∈ held) (hseat : seatOf requests hold = some seat)
    (hlease : lease.inFlight = (leases seat).inFlight - 1) (other : String) :
    (Function.update leases seat lease other).inFlight =
      holding requests other (held.erase hold) := by
  rw [holding_erase hmem, hseat]
  by_cases hother : other = seat
  · subst hother
    rw [Function.update_self, hlease, h, if_pos rfl]
  · rw [Function.update_of_ne hother, h, if_neg fun hsame => hother (Option.some.inj hsame).symm]
    rfl

omit [DecidableEq ι] in
theorem seatOf_eq {i : ι} {index : Nat} {seat : FanoutSeat}
    (h : (requests i).seats[index]? = some seat) :
    seatOf requests (i, index) = some seat.seatId := by
  rw [seatOf, List.getElem?_map, h]
  rfl

omit [DecidableEq ι] in
/-- A planned row is of the seat at its index. -/
theorem CallOk.seatOf_planned {i : ι} {call : Call Response} {index : Nat} {row : PlannedRow}
    (h : CallOk (requests i) call) (hrow : call.planned[index]? = some row) :
    seatOf requests (i, index) = some row.seat := by
  have hlt : index < call.planned.length := (List.getElem?_eq_some_iff.mp hrow).1
  have hseat : (call.planned.map (·.seat))[index]? = some row.seat := by
    rw [List.getElem?_map, hrow]
    rfl
  rwa [h.planned, List.getElem?_take_of_lt hlt] at hseat

theorem Consistent.steps {s s' : System ι Response} {i : ι}
    (h : Consistent cooldown requests s) (hstep : Steps cooldown requests s i s') :
    Consistent cooldown requests s' := by
  cases hstep with
  | refused seat error hidle hseat =>
    refine ⟨callOk_update h.calls ((h.calls i).pushPlanned hseat rfl), h.nodup, ?_, h.inFlight,
      h.within, h.cooling, h.cooled⟩
    refine held_update h.held (fun _ _ _ => Iff.rfl) fun index => ?_
    rw [holds_refused hidle rfl, h.held]
  | acquired seat now hidle hseat hcooldown hlimit =>
    have hnew : (i, (s.calls i).planned.length) ∉ s.held := by
      rw [h.held]
      rintro (⟨hacquired, -⟩ | ⟨-, row, hrow, -⟩)
      · rw [hidle] at hacquired
        cases hacquired
      · rw [List.getElem?_length] at hrow
        cases hrow
    refine ⟨callOk_update h.calls ⟨(h.calls i).planned, ?_, (h.calls i).rows, (h.calls i).landing⟩,
      ?_, ?_, ?_, h.within.concat ?_, ?_, h.cooled.concat ?_⟩
    · rintro other hother
      cases hother
      exact hseat
    · rw [← List.concat_eq_append]
      exact h.nodup.concat hnew
    · refine held_update h.held (fun j index hj => ?_) fun index => ?_
      · simp [hj]
      · rw [holds_acquired hidle, List.mem_append, List.mem_singleton, h.held]
        simp
    · intro other
      dsimp only
      rw [holding, List.countP_append, ← holding, List.countP_singleton, seatOf_eq hseat]
      by_cases hother : other = seat.seatId
      · subst hother
        rw [Function.update_self, h.inFlight]
        simp
      · rw [Function.update_of_ne hother, h.inFlight]
        simp [Ne.symm hother]
    · intro other limit hother hsome
      cases hseat.symm.trans hother
      rw [← h.inFlight]
      exact hlimit limit hsome
    · intro other
      dsimp only
      rw [coolUntil, List.foldl_append, ← coolUntil, ← h.cooling]
      by_cases hother : other = seat.seatId
      · subst hother
        rw [Function.update_self]
        rfl
      · rw [Function.update_of_ne hother]
        rfl
    · rintro other now' hevent
      cases hevent
      rw [← h.cooling]
      exact hcooldown
  | planned seat row hacquired hrow hstatus =>
    have hseat := (h.calls i).acquired seat hacquired
    refine ⟨callOk_update h.calls ((h.calls i).pushPlanned hseat hrow), h.nodup, ?_, h.inFlight,
      h.within, h.cooling, h.cooled⟩
    refine held_update h.held (fun _ _ _ => Iff.rfl) fun index => ?_
    rw [holds_pushPlanned (by rw [hacquired]; rfl) ((h.calls i).rows_eq_nil hseat) hstatus, h.held]
  | planFailed seat error hacquired =>
    have hseat := (h.calls i).acquired seat hacquired
    have hmem : (i, (s.calls i).planned.length) ∈ s.held :=
      (h.held _ _).mpr (.inl ⟨by rw [hacquired]; rfl, rfl⟩)
    refine ⟨callOk_update h.calls ((h.calls i).pushPlanned hseat rfl), h.nodup.erase _, ?_,
      inFlight_erase h.inFlight hmem (seatOf_eq hseat) rfl, h.within.erase _, ?_, h.cooled⟩
    · refine held_update h.held (fun j index hj => ?_) fun index => ?_
      · rw [h.nodup.mem_erase_iff]
        simp [hj]
      · rw [holds_planFailed rfl, h.nodup.mem_erase_iff, h.held]
        simp [and_comm]
    · intro other
      dsimp only
      rw [← h.cooling, releasePlanning]
      by_cases hother : other = seat.seatId
      · subst hother
        rw [Function.update_self]
      · rw [Function.update_of_ne hother]
  | passed row result hplanned hrow hstatus =>
    have hidle := (h.calls i).acquired_eq_none hplanned
    have hfree : (i, (s.calls i).rows.length) ∉ s.held := by
      rw [h.held]
      rintro (⟨hacquired, -⟩ | ⟨-, other, hother, havailable⟩)
      · rw [hidle] at hacquired
        cases hacquired
      · cases hrow.symm.trans hother
        exact havailable hstatus
    refine ⟨callOk_update h.calls ((h.calls i).land hplanned hrow), h.nodup, ?_, h.inFlight,
      h.within, h.cooling, h.cooled⟩
    refine held_update h.held (fun _ _ _ => Iff.rfl) fun index => ?_
    rw [holds_landed hidle, h.held]
    refine (and_iff_left_of_imp ?_).symm
    rintro hholds rfl
    exact hfree ((h.held _ _).mpr hholds)
  | released row result now hplanned hrow hstatus =>
    have hidle := (h.calls i).acquired_eq_none hplanned
    have hmem : (i, (s.calls i).rows.length) ∈ s.held :=
      (h.held _ _).mpr (.inr ⟨le_rfl, row, hrow, hstatus⟩)
    refine ⟨callOk_update h.calls ((h.calls i).land hplanned hrow), h.nodup.erase _, ?_,
      inFlight_erase h.inFlight hmem ((h.calls i).seatOf_planned hrow) rfl, h.within.erase _,
      ?_, ?_⟩
    · refine held_update h.held (fun j index hj => ?_) fun index => ?_
      · rw [h.nodup.mem_erase_iff]
        simp [hj]
      · rw [holds_landed hidle, h.nodup.mem_erase_iff, h.held]
        simp [and_comm]
    · intro other
      dsimp only
      rw [release]
      cases limited result with
      | true =>
        rw [if_pos rfl, if_pos rfl, coolUntil, List.foldl_append, ← coolUntil, ← h.cooling]
        by_cases hother : other = row.seat
        · subst hother
          rw [Function.update_self]
          exact (if_pos rfl).symm
        · rw [Function.update_of_ne hother]
          exact (if_neg (Ne.symm hother)).symm
      | false =>
        rw [if_neg Bool.false_ne_true, if_neg Bool.false_ne_true, ← h.cooling]
        by_cases hother : other = row.seat
        · subst hother
          rw [Function.update_self]
        · rw [Function.update_of_ne hother]
    · cases limited result with
      | true => exact h.cooled.concat nofun
      | false => exact h.cooled

omit [DecidableEq ι] in
theorem consistent_init : Consistent cooldown requests ({} : System ι Response) where
  calls i := .init (requests i)
  nodup := List.nodup_nil
  held i index := by simp [Holds]
  inFlight _ := rfl
  within before hold after h := by simp at h
  cooling _ := rfl
  cooled before seat now after h := by simp at h

theorem Reachable.consistent {s : System ι Response} (h : Reachable cooldown requests s) :
    Consistent cooldown requests s := by
  induction h with
  | init => exact consistent_init
  | step _ i action hstep ih => exact ih.steps (steps_of_step hstep)

/-! ## Balance -/

theorem length_successes_and_head (rows : List (FanoutRow Response)) :
    (successes rows).length = rows.countP (·.isOk) ∧
      (successes rows).head? = rows.findIdx? (·.isOk) := by
  have hfrom : ∀ (rows : List (FanoutRow Response)) (n : Nat),
      (((rows.zipIdx n).filter (·.1.isOk)).map (·.2)).length = rows.countP (·.isOk) ∧
        (((rows.zipIdx n).filter (·.1.isOk)).map (·.2)).head? =
          (rows.findIdx? (·.isOk)).map (· + n) := by
    intro rows
    induction rows with
    | nil => exact fun _ => ⟨rfl, rfl⟩
    | cons row rows ih =>
      intro n
      obtain ⟨hlength, hhead⟩ := ih (n + 1)
      rw [List.zipIdx_cons, List.findIdx?_cons, List.countP_cons, List.filter_cons]
      cases row.isOk with
      | true => exact ⟨congrArg (· + 1) hlength, by simp⟩
      | false =>
        refine ⟨hlength, hhead.trans ?_⟩
        rw [if_neg Bool.false_ne_true, Option.map_map]
        refine congrArg (fun f => (rows.findIdx? (·.isOk)).map f) (funext fun k => ?_)
        exact Nat.add_right_comm k n 1
  obtain ⟨hlength, hhead⟩ := hfrom rows 0
  exact ⟨hlength, hhead.trans (by simp)⟩

/-- The selected row is the first that succeeded, if enough rows did. -/
theorem report_selected (mode : FanoutMode) (rows : List (FanoutRow Response)) :
    (report mode rows).selected =
      if mode.required rows.length ≤ rows.countP (·.isOk) then rows.findIdx? (·.isOk)
      else none := by
  rw [report, (length_successes_and_head rows).1, (length_successes_and_head rows).2]

/-- The call has returned: all its seats are planned and all its rows have landed. -/
def Returned (request : Request) (call : Call Response) : Prop :=
  call.planned.length = request.seats.length ∧ call.rows.length = request.seats.length

structure Balanced (cooldown : Nat) (requests : ι → Request) (s : System ι Response) : Prop where
  held : s.held.Nodup ∧ ∀ i index, (i, index) ∈ s.held ↔ Holds (s.calls i) index
  inFlight : ∀ seat, (s.leases seat).inFlight = holding requests seat s.held
  /-- The limit that the last row in flight was checked against is kept. -/
  limits : ∀ before hold after seat limit, s.held = before ++ hold :: after →
    (requests hold.1).seats[hold.2]? = some seat → seat.maxInFlight = some limit →
    (∀ other ∈ after, seatOf requests other ≠ some seat.seatId) →
      (s.leases seat.seatId).inFlight ≤ limit
  released : (∀ i, s.calls i = {} ∨ Returned (requests i) (s.calls i)) →
    ∀ seat, (s.leases seat).inFlight = 0
  rows : ∀ i, Returned (requests i) (s.calls i) →
    (s.calls i).rows.map (·.seat) = (requests i).seats.map (·.seatId)
  /-- Unless the clock went back, a seat that was limited has cooled down when it is acquired. -/
  cooled : ∀ before seat failed between now after,
    s.log = before ++ LeaseEvent.limited seat failed ::
      (between ++ LeaseEvent.acquired seat now :: after) →
    (∀ later, LeaseEvent.limited seat later ∈ between → failed ≤ later) →
      saturatingAdd failed (min cooldown u64Max) ≤ now
  selected : ∀ i, Returned (requests i) (s.calls i) →
    (report (requests i).mode (s.calls i).rows).selected =
      if (requests i).mode.required (s.calls i).rows.length ≤ (s.calls i).rows.countP (·.isOk) then
        (s.calls i).rows.findIdx? (·.isOk)
      else
        none

theorem le_coolUntil {seat : String} {failed till : Nat} {between : List LeaseEvent}
    (htill : saturatingAdd failed (min cooldown u64Max) ≤ till)
    (hlater : ∀ later, .limited seat later ∈ between → failed ≤ later) :
    saturatingAdd failed (min cooldown u64Max) ≤ between.foldl (coolStep cooldown seat) till := by
  induction between generalizing till with
  | nil => exact htill
  | cons event between ih =>
    refine ih ?_ fun later hmem => hlater later (List.mem_cons_of_mem _ hmem)
    cases event with
    | acquired => exact htill
    | limited other now =>
      rw [coolStep]
      split
      · rename_i hother
        have hle := hlater now (hother ▸ List.mem_cons_self)
        rw [saturatingAdd, saturatingAdd]
        omega
      · exact htill

theorem holds_returned {request : Request} {call : Call Response} {index : Nat}
    (hcall : CallOk request call) (h : call = {} ∨ Returned request call) :
    ¬Holds call index := by
  rcases h with rfl | ⟨hplanned, hrows⟩
  · simp [Holds]
  · rintro (⟨hacquired, -⟩ | ⟨hle, row, hrow, -⟩)
    · rw [hcall.acquired_eq_none hplanned] at hacquired
      cases hacquired
    · have hlt := (List.getElem?_eq_some_iff.mp hrow).1
      omega

/-- The leases of a fan-out engine are balanced in every state that its calls reach. -/
theorem fanout_balanced {s : System ι Response} (h : Reachable cooldown requests s) :
    Balanced cooldown requests s := by
  have hs := h.consistent
  refine ⟨⟨hs.nodup, hs.held⟩, hs.inFlight, ?_, ?_, ?_, ?_, fun i _ => report_selected _ _⟩
  · intro before hold after seat limit hheld hseat hlimit hlast
    have hless := hs.within before hold after hheld seat limit hseat hlimit
    have hafter : holding requests seat.seatId after = 0 := by
      refine List.countP_eq_zero.mpr fun other hother => ?_
      simpa using hlast other hother
    rw [hs.inFlight, hheld]
    simp only [holding, List.countP_append, List.countP_cons] at hless hafter ⊢
    split
    · omega
    · omega
  · intro hreturned seat
    have hnone : s.held = [] := by
      refine List.eq_nil_iff_forall_not_mem.mpr fun ⟨i, index⟩ hmem => ?_
      exact holds_returned (hs.calls i) (hreturned i) ((hs.held i index).mp hmem)
    rw [hs.inFlight, hnone]
    rfl
  · rintro i ⟨hplanned, hrows⟩
    have hcall := hs.calls i
    have hseats := congrArg (List.map Prod.fst) hcall.rows
    rw [List.map_map, List.map_take, List.map_map] at hseats
    have hplannedSeats := hcall.planned
    rw [hrows, ← hplanned, ← List.map_take, List.take_length] at hseats
    rw [hplanned, ← List.map_take, List.take_length] at hplannedSeats
    exact hseats.trans hplannedSeats
  · intro before seat failed between now after hlog hlater
    have hcooled := hs.cooled (before ++ .limited seat failed :: between) seat now after
      (by rw [hlog]; simp)
    rw [coolUntil, List.foldl_append, List.foldl_cons] at hcooled
    exact (le_coolUntil (if_pos rfl).ge hlater).trans hcooled

end

namespace FanoutSample

def seat : FanoutSeat := ⟨"fake", some 1⟩

/-- One call that asks for the same seat twice. -/
def requests : Unit → Request := fun _ => ⟨[seat, seat], .firstGood, true⟩

/-- The seat fails while it is planned, and is acquired again. -/
theorem reachable_again : ∃ s : System Unit String, Reachable 30000 requests s ∧
    (s.calls ()).planned = [⟨"fake", .unavailable, none, some "quota exceeded"⟩] ∧
    s.log = [.acquired "fake" 0, .acquired "fake" 0] := by
  have hfirst : Reachable 30000 requests ({} : System Unit String) := .init
  have hacquired := hfirst.step () (.acquire 0) rfl
  have hfailed := hacquired.step () (.plan (.error "quota exceeded")) rfl
  exact ⟨_, hfailed.step () (.acquire 0) rfl, rfl, rfl⟩

end FanoutSample

open FanoutSample in
theorem fanout_balanced_again :
    ∃ s : System Unit String, Reachable 30000 requests s ∧ Balanced 30000 requests s := by
  obtain ⟨s, hs, -⟩ := reachable_again
  exact ⟨s, hs, fanout_balanced hs⟩

open FanoutSample in
/-- A limit that is met in planning starts no cooldown. -/
theorem planning_limit_not_cooled :
    isLimit "quota exceeded" = true ∧
    ∃ s : System Unit String, Reachable 30000 requests s ∧
      (s.calls ()).planned = [⟨"fake", .unavailable, none, some "quota exceeded"⟩] ∧
      s.log = [.acquired "fake" 0, .acquired "fake" 0] :=
  ⟨by decide +kernel, reachable_again⟩

end SimAgentNet.Provider
