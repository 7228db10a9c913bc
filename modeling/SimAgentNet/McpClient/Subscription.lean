import SimAgentNet.McpClient.Session

/-! # Subscriptions

The frames that a subscription is answered with: an acknowledgement, events and a dated terminal,
under one id. -/

namespace SimAgentNet.McpClient
open OpenaiServer (Json JsonObject)

inductive ClientEvent where
  | acknowledged (id : String)
  | event (body : Json)
  | complete (completedAtMs : Nat) (cancelled : Bool)

structure Subscription where
  id : String
  events : List ClientEvent

/-- The text of a field. -/
def textField (object : JsonObject) (name : String) : Option String :=
  (object.get name).bind Json.asStr

section
variable (cancelled : Bool)

/-- The event of the frame at an index, of so many frames. -/
def frameEvent (id : String) (length index : Nat) (frame : Json) : Except ClientError ClientEvent :=
  match frame.asObject with
  | none => .error (.subscription "stream frame must be an object")
  | some object =>
    if textField object "subscriptionId" ≠ some id then
      .error (.subscription "subscription id mismatch")
    else if textField object "type" = some "event" ∧ index + 1 < length then
      match object.get "event" with
      | some body => .ok (.event body)
      | none => .error (.subscription "event body missing")
    else if textField object "type" = some "complete" ∧ index + 1 = length then
      match (object.get "completedAtMs").bind Json.asU64 with
      | some completedAtMs => .ok (.complete completedAtMs
          (((object.get "cancelled").bind Json.asBool).getD cancelled))
      | none => .error (.subscription "dated terminal required")
    else
      .error (.subscription "invalid acknowledgement/event/terminal sequence")

def frameEvents (id : String) (length : Nat) :
    Nat → List Json → Except ClientError (List ClientEvent)
  | _, [] => .ok []
  | index, frame :: frames => do
    let event ← frameEvent cancelled id length index frame
    let events ← frameEvents id length (index + 1) frames
    return event :: events

def ClientEvent.isComplete : ClientEvent → Bool
  | .complete .. => true
  | _ => false

def validateSubscription (frames : List Json) : Except ClientError Subscription :=
  match frames.head?.bind Json.asObject with
  | none => .error (.subscription "missing acknowledgement")
  | some first =>
    if textField first "type" ≠ some "acknowledged" then
      .error (.subscription "first frame must acknowledge")
    else match textField first "subscriptionId" with
      | none => .error (.subscription "acknowledgement missing id")
      | some id => do
        let events ← frameEvents cancelled id frames.length 1 frames.tail
        let events := .acknowledged id :: events
        if events.getLast?.any (·.isComplete) then return ⟨id, events⟩
        else .error (.subscription "dated terminal required")

end

/-! ## The grammar -/

/-- The frame acknowledges a subscription of the id. -/
def Acknowledges (id : String) (frame : Json) : Prop :=
  ∃ object, frame.asObject = some object ∧ textField object "type" = some "acknowledged" ∧
    textField object "subscriptionId" = some id

/-- The frame carries an event of the subscription. -/
def Carries (id : String) (body frame : Json) : Prop :=
  ∃ object, frame.asObject = some object ∧ textField object "type" = some "event" ∧
    textField object "subscriptionId" = some id ∧ object.get "event" = some body

/-- The frame ends the subscription with a value of `completedAtMs`. -/
def Ends (id : String) (completedAt frame : Json) : Prop :=
  ∃ object, frame.asObject = some object ∧ textField object "type" = some "complete" ∧
    textField object "subscriptionId" = some id ∧ object.get "completedAtMs" = some completedAt

/-- Whether the frame that ends a subscription says that it was cancelled. -/
def endCancelled (cancelled : Bool) (frame : Json) : Bool :=
  ((frame.asObject.bind (·.get "cancelled")).bind Json.asBool).getD cancelled

/-- One acknowledgement, events with their bodies, and one end with a date, all of one id. -/
structure Sequence (id : String) (bodies : List Json) (completedAt : Json) (last : Json)
    (frames : List Json) : Prop where
  split : ∃ first middle, frames = first :: (middle ++ [last]) ∧ Acknowledges id first ∧
    List.Forall₂ (Carries id) bodies middle
  ends : Ends id completedAt last

theorem frameEvent_eq_ok_iff {cancelled : Bool} {id : String} {length index : Nat} {frame : Json}
    {event : ClientEvent} :
    frameEvent cancelled id length index frame = .ok event ↔
      (index + 1 < length ∧ ∃ body, Carries id body frame ∧ event = .event body) ∨
      (index + 1 = length ∧ ∃ completedAt completedAtMs, Ends id completedAt frame ∧
        completedAt.asU64 = some completedAtMs ∧
        event = .complete completedAtMs (endCancelled cancelled frame)) := by
  cases hobject : frame.asObject with
  | none => simp [frameEvent, Carries, Ends, hobject]
  | some object =>
    have hcarries : ∀ body, Carries id body frame ↔ textField object "type" = some "event" ∧
        textField object "subscriptionId" = some id ∧ object.get "event" = some body := by
      intro body
      simp [Carries, hobject]
    have hends : ∀ completedAt, Ends id completedAt frame ↔
        textField object "type" = some "complete" ∧
        textField object "subscriptionId" = some id ∧
        object.get "completedAtMs" = some completedAt := by
      intro completedAt
      simp [Ends, hobject]
    simp only [frameEvent, hobject, hcarries, hends, endCancelled, Option.bind_some]
    by_cases hid : textField object "subscriptionId" = some id
    · rw [if_neg (not_not_intro hid)]
      by_cases hevent : textField object "type" = some "event" ∧ index + 1 < length
      · rw [if_pos hevent]
        obtain ⟨htype, hindex⟩ := hevent
        cases hbody : object.get "event" with
        | none => simp [htype, hid]
        | some body => simp [htype, hid, hindex, eq_comm]
      · rw [if_neg hevent]
        by_cases hcomplete : textField object "type" = some "complete" ∧ index + 1 = length
        · rw [if_pos hcomplete]
          obtain ⟨htype, hindex⟩ := hcomplete
          cases hdate : object.get "completedAtMs" with
          | none => simp [htype]
          | some completedAt =>
            cases hms : completedAt.asU64 with
            | none => simp [htype, hms]
            | some completedAtMs => simp [htype, hid, hindex, hms, eq_comm]
        · rw [if_neg hcomplete]
          refine iff_of_false nofun ?_
          rintro (⟨hindex, body, ⟨htype, -⟩, -⟩ | ⟨hindex, completedAt, _, ⟨htype, -⟩, -⟩)
          · exact hevent ⟨htype, hindex⟩
          · exact hcomplete ⟨htype, hindex⟩
    · rw [if_pos hid]
      simp [hid]

/-- Frames of which the last has the last index are events before an end. -/
theorem frameEvents_eq_ok_iff {cancelled : Bool} {id : String} {length : Nat}
    {frames : List Json} :
    ∀ {index : Nat} {events : List ClientEvent}, frames ≠ [] → index + frames.length = length →
      (frameEvents cancelled id length index frames = .ok events ↔
        ∃ bodies middle last completedAt completedAtMs, frames = middle ++ [last] ∧
          List.Forall₂ (Carries id) bodies middle ∧ Ends id completedAt last ∧
          completedAt.asU64 = some completedAtMs ∧
          events = bodies.map .event ++ [.complete completedAtMs (endCancelled cancelled last)]) := by
  induction frames with
  | nil => exact fun h => absurd rfl h
  | cons frame frames ih =>
    intro index events _ hlength
    rw [List.length_cons] at hlength
    simp only [frameEvents, Except.bind_eq_ok_iff, frameEvent_eq_ok_iff]
    cases frames with
    | nil =>
      have hlast : index + 1 = length := hlength
      constructor
      · rintro ⟨event, ⟨hindex, -⟩ | ⟨-, completedAt, completedAtMs, hends, hms, rfl⟩, rest,
          hrest, heq⟩
        · exact absurd hlast hindex.ne
        · cases hrest
          cases heq
          exact ⟨[], [], frame, completedAt, completedAtMs, rfl, .nil, hends, hms, rfl⟩
      · rintro ⟨bodies, middle, last, completedAt, completedAtMs, hframes, hbodies, hends, hms, rfl⟩
        have hsplit : [] ++ [frame] = middle ++ [last] := hframes
        obtain ⟨rfl, hsame⟩ := List.append_inj' hsplit rfl
        cases hsame
        cases hbodies
        exact ⟨_, .inr ⟨hlast, completedAt, completedAtMs, hends, hms, rfl⟩, [], rfl, rfl⟩
    | cons next rest =>
      have hindex : index + 1 < length := by
        rw [← hlength, List.length_cons]
        omega
      have hnext := fun events => @ih (index + 1) events (List.cons_ne_nil _ _) (by omega)
      constructor
      · rintro ⟨event, ⟨-, body, hbody, rfl⟩ | ⟨hlast, -⟩, events', hevents', heq⟩
        · obtain ⟨bodies, middle, last, completedAt, completedAtMs, hframes, hbodies, hends, hms,
            rfl⟩ := (hnext events').mp hevents'
          cases heq
          exact ⟨body :: bodies, frame :: middle, last, completedAt, completedAtMs,
            congrArg (frame :: ·) hframes, .cons hbody hbodies, hends, hms, rfl⟩
        · exact absurd hlast hindex.ne
      · rintro ⟨bodies, middle, last, completedAt, completedAtMs, hframes, hbodies, hends, hms, rfl⟩
        cases hbodies with
        | nil => cases hframes
        | cons hbody hbodies =>
          rename_i body _ bodies middle
          obtain ⟨rfl, hrest⟩ := List.cons.inj hframes
          exact ⟨_, .inl ⟨hindex, body, hbody, rfl⟩, _, (hnext _).mpr ⟨bodies, middle, last,
            completedAt, completedAtMs, hrest, hbodies, hends, hms, rfl⟩, rfl⟩

/-- A subscription is accepted exactly when its frames are a sequence that ends at a time in
milliseconds, and its events are the frames in their order. -/
theorem subscription_iff {cancelled : Bool} {frames : List Json} {subscription : Subscription} :
    validateSubscription cancelled frames = .ok subscription ↔
      ∃ id bodies completedAt last completedAtMs, Sequence id bodies completedAt last frames ∧
        completedAt.asU64 = some completedAtMs ∧
        subscription = ⟨id, .acknowledged id :: (bodies.map .event ++
          [.complete completedAtMs (endCancelled cancelled last)])⟩ := by
  constructor
  · intro h
    rw [validateSubscription] at h
    cases hfirst : frames.head?.bind Json.asObject with
    | none =>
      rw [hfirst] at h
      cases h
    | some object =>
      obtain ⟨first, hhead, hobject⟩ := Option.bind_eq_some_iff.mp hfirst
      obtain ⟨rest, rfl⟩ := List.head?_eq_some_iff.mp hhead
      simp only [hfirst] at h
      by_cases htype : textField object "type" = some "acknowledged"
      · rw [if_neg (not_not_intro htype)] at h
        cases hid : textField object "subscriptionId" with
        | none =>
          rw [hid] at h
          cases h
        | some id =>
          rw [hid] at h
          obtain ⟨events, hevents, hlast⟩ := Except.bind_eq_ok_iff.mp h
          have hrest : rest ≠ [] := by
            rintro rfl
            cases hevents
            cases hlast
          obtain ⟨bodies, middle, last, completedAt, completedAtMs, rfl, hbodies, hends, hms, rfl⟩ :=
            (frameEvents_eq_ok_iff hrest (Nat.add_comm _ _)).mp hevents
          refine ⟨id, bodies, completedAt, last, completedAtMs,
            ⟨⟨first, middle, rfl, ⟨object, hobject, htype, hid⟩, hbodies⟩, hends⟩, hms, ?_⟩
          rw [← List.cons_append, List.getLast?_concat] at hlast
          exact (Except.ok.inj hlast).symm
      · rw [if_pos htype] at h
        cases h
  · rintro ⟨id, bodies, completedAt, last, completedAtMs,
      ⟨⟨first, middle, rfl, ⟨object, hobject, htype, hid⟩, hbodies⟩, hends⟩, hms, rfl⟩
    have hne : middle ++ [last] ≠ [] := List.append_ne_nil_of_right_ne_nil _ (List.cons_ne_nil _ _)
    have hevents : frameEvents cancelled id (first :: (middle ++ [last])).length 1
        (middle ++ [last]) = .ok _ :=
      (frameEvents_eq_ok_iff hne (Nat.add_comm 1 _)).mpr
        ⟨bodies, middle, last, completedAt, completedAtMs, rfl, hbodies, hends, hms, rfl⟩
    rw [validateSubscription, List.head?_cons, Option.bind_some, hobject]
    dsimp only
    rw [if_neg (not_not_intro htype), hid]
    refine Except.bind_eq_ok_iff.mpr ⟨_, hevents, ?_⟩
    rw [← List.cons_append, List.getLast?_concat]
    rfl

namespace SubscriptionSample

def acknowledged : Json :=
  .object [("subscriptionId", .string "news"), ("type", .string "acknowledged")]

def ended : Json := .object [("completedAtMs", .number "-1"), ("subscriptionId", .string "news"),
  ("type", .string "complete")]

end SubscriptionSample

open SubscriptionSample in
/-- A date before the epoch is refused. -/
theorem negative_date_refused :
    (∃ id bodies last, Sequence id bodies (.number (toString (-1 : Int))) last
      [acknowledged, ended]) ∧
    ∀ cancelled subscription,
      validateSubscription cancelled [acknowledged, ended] ≠ .ok subscription := by
  constructor
  · exact ⟨"news", [], ended, ⟨acknowledged, [], rfl, ⟨_, rfl, rfl, rfl⟩, .nil⟩, _, rfl, rfl, rfl,
      rfl⟩
  · intro cancelled subscription h
    cases h

end SimAgentNet.McpClient
