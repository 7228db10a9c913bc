import SimAgentNet.Data.Run

/-! # Shutting down the raw HTTP server

Any number of calls of `serve` and of `shutdown` in any order of their steps. A step takes the lock
of the active requests, gives it back, or reads or sets one cancellation flag. -/

namespace SimAgentNet.Server.RawHttp

/-- How far a call of `serve` has got with its request. -/
inductive Phase where
  | absent
  /-- Its scope is there. -/
  | started
  /-- It has found the server shut down. -/
  | warned
  /-- It has looked at the server's flag, and its scope is not registered yet. -/
  | checked
  /-- The handler runs. -/
  | running
  /-- The handler has returned an error. -/
  | failed
  | returned
  | completed
  | done
deriving DecidableEq

/-- How far a call of `shutdown` has got. -/
inductive Call where
  | idle
  | raised
  | draining
  | returned
deriving DecidableEq

/-- Who holds the lock of the active requests: a shutdown with the requests it still has to cancel,
or a request that takes the cancelled ones out, with those it keeps and those it has not looked
at. -/
inductive Lock where
  | free
  | draining (call : Nat) (pending : List Nat)
  | sweeping (request : Nat) (kept rest : List Nat)
deriving DecidableEq

structure RawHttpServer where
  shutdown : Bool
  active : List Nat
  lock : Lock
  phase : Nat → Phase
  cancelled : Nat → Bool
  call : Nat → Call

inductive Event where
  | start (request : Nat)
  | check (request : Nat)
  | warn (request : Nat)
  | register (request : Nat)
  /-- The deadline, the peer, the caller or the handler cancels the scope. -/
  | interrupt (request : Nat)
  | finish (request : Nat) (ok : Bool)
  | fail (request : Nat)
  | complete (request : Nat)
  | sweep (request : Nat)
  | look (request : Nat)
  | swept (request : Nat)
  | raise (call : Nat)
  | drain (call : Nat)
  | cancel (call : Nat)
  | «return» (call : Nat)
deriving DecidableEq

namespace RawHttpServer

def new : RawHttpServer where
  shutdown := false
  active := []
  lock := .free
  phase _ := .absent
  cancelled _ := false
  call _ := .idle

def move (s : RawHttpServer) (i : Nat) (phase : Phase) : RawHttpServer :=
  { s with phase := Function.update s.phase i phase }

def cancel (s : RawHttpServer) (i : Nat) : RawHttpServer :=
  { s with cancelled := Function.update s.cancelled i true }

def enter (s : RawHttpServer) (c : Nat) (call : Call) : RawHttpServer :=
  { s with call := Function.update s.call c call }

end RawHttpServer

/-- What the next step of a call may be. -/
inductive Step (s : RawHttpServer) : Event → RawHttpServer → Prop
  | start : s.phase i = .absent → Step s (.start i) (s.move i .started)
  | check : s.phase i = .started →
    Step s (.check i) (s.move i (if s.shutdown then .warned else .checked))
  | warn : s.phase i = .warned → Step s (.warn i) ((s.cancel i).move i .checked)
  | register : s.phase i = .checked → s.lock = .free →
    Step s (.register i) { s.move i .running with active := s.active ++ [i] }
  | interrupt : s.phase i ≠ .absent → Step s (.interrupt i) (s.cancel i)
  | finish : s.phase i = .running →
    Step s (.finish i ok) (s.move i (if ok then .returned else .failed))
  | fail : s.phase i = .failed → Step s (.fail i) ((s.cancel i).move i .returned)
  | complete : s.phase i = .returned → Step s (.complete i) ((s.cancel i).move i .completed)
  | sweep : s.phase i = .completed → s.lock = .free →
    Step s (.sweep i) { s with lock := .sweeping i [] s.active }
  | look : s.phase i = .completed → s.lock = .sweeping i kept (r :: rest) →
    Step s (.look i)
      { s with lock := .sweeping i (if s.cancelled r then kept else kept ++ [r]) rest }
  | swept : s.phase i = .completed → s.lock = .sweeping i kept [] →
    Step s (.swept i) { s.move i .done with active := kept, lock := .free }
  | raise : s.call c = .idle → Step s (.raise c) { s.enter c .raised with shutdown := true }
  | drain : s.call c = .raised → s.lock = .free →
    Step s (.drain c) { s.enter c .draining with active := [], lock := .draining c s.active }
  | cancel : s.call c = .draining → s.lock = .draining c (r :: pending) →
    Step s (.cancel c) { s.cancel r with lock := .draining c pending }
  | return : s.call c = .draining → s.lock = .draining c [] →
    Step s (.return c) { s.enter c .returned with lock := .free }

/-- What a new server has come to after the events. -/
inductive Reaches : List Event → RawHttpServer → Prop
  | new : Reaches [] .new
  | step : Reaches events s → Step s e s' → Reaches (events ++ [e]) s'

/-- A handler that runs after a shutdown has returned is in a cancelled scope. -/
def Quiet (s : RawHttpServer) : Prop :=
  (∃ c, s.call c = .returned) → ∀ i, s.phase i = .running → s.cancelled i = true

/-- The scope of a request has been registered. -/
def Phase.registered : Phase → Bool
  | .absent | .started | .warned | .checked => false
  | _ => true

namespace RawHttpServer

/-- The registered scopes that no shutdown has cancelled yet and no request has taken out. -/
def table (s : RawHttpServer) : List Nat :=
  match s.lock with
  | .free => s.active
  | .draining _ pending => pending
  | .sweeping _ kept rest => kept ++ rest

/-- A shutdown that holds the lock has emptied the list of active requests. -/
def Drained (s : RawHttpServer) : Prop :=
  ∀ c pending, s.lock = .draining c pending → s.active = []

variable (s : RawHttpServer) (i j c d : Nat) (phase : Phase) (call : Call)

@[simp, grind =] theorem move_phase : (s.move i phase).phase j = if j = i then phase else s.phase j :=
  Function.update_apply ..
@[simp, grind =] theorem move_cancelled : (s.move i phase).cancelled j = s.cancelled j := rfl
@[simp, grind =] theorem move_call : (s.move i phase).call c = s.call c := rfl
@[simp, grind =] theorem move_shutdown : (s.move i phase).shutdown = s.shutdown := rfl
@[simp, grind =] theorem move_lock : (s.move i phase).lock = s.lock := rfl
@[simp, grind =] theorem move_table : (s.move i phase).table = s.table := rfl

@[simp, grind =] theorem cancel_cancelled :
    (s.cancel i).cancelled j = if j = i then true else s.cancelled j := Function.update_apply ..
@[simp, grind =] theorem cancel_phase : (s.cancel i).phase j = s.phase j := rfl
@[simp, grind =] theorem cancel_call : (s.cancel i).call c = s.call c := rfl
@[simp, grind =] theorem cancel_shutdown : (s.cancel i).shutdown = s.shutdown := rfl
@[simp, grind =] theorem cancel_lock : (s.cancel i).lock = s.lock := rfl

@[simp, grind =] theorem enter_call : (s.enter c call).call d = if d = c then call else s.call d :=
  Function.update_apply ..
@[simp, grind =] theorem enter_phase : (s.enter c call).phase i = s.phase i := rfl
@[simp, grind =] theorem enter_cancelled : (s.enter c call).cancelled i = s.cancelled i := rfl
@[simp, grind =] theorem enter_shutdown : (s.enter c call).shutdown = s.shutdown := rfl
@[simp, grind =] theorem enter_lock : (s.enter c call).lock = s.lock := rfl

variable {s}

theorem table_free (h : s.lock = .free) : s.table = s.active := by rw [table, h]

end RawHttpServer

/-! ## What a step can do -/

namespace Step
open RawHttpServer
variable {s s' : RawHttpServer} {e : Event}

theorem registered (hs : Step s e s') (h : (s.phase i).registered = true) :
    (s'.phase i).registered = true := by
  cases hs <;> grind [Phase.registered]

theorem cancelled (hs : Step s e s') (h : s.cancelled i = true) : s'.cancelled i = true := by
  cases hs <;> grind

theorem running (hs : Step s e s') (h : s'.phase i = .running) :
    s.phase i = .running ∨ e = .register i := by
  cases hs <;> grind

theorem warned (hs : Step s e s') (h : s'.phase i = .warned) :
    s.phase i = .warned ∨ e = .check i ∧ s.shutdown = true := by
  cases hs <;> grind

theorem warned_of_check (hs : Step s (.check i) s') (h : s.shutdown = true) :
    s'.phase i = .warned := by
  cases hs
  simp [h]

theorem of_warned (hs : Step s e s') (h : s.phase i = .warned) :
    s'.phase i = .warned ∨ s'.cancelled i = true := by
  cases hs <;> grind

theorem call_returned (hs : Step s e s') (c : Nat) :
    s'.call c = .returned ↔ s.call c = .returned ∨ e = .return c := by
  cases hs <;> grind

theorem shutdown (hs : Step s e s') : s'.shutdown = true ↔ s.shutdown = true ∨ ∃ c, e = .raise c := by
  cases hs <;> grind

theorem drained (hs : Step s e s') (h : Drained s) : Drained s' := by
  cases hs with
  | register _ hlock => exact fun c pending hd => absurd (hlock.symm.trans hd) nofun
  | sweep | look | swept | «return» => exact nofun
  | drain => exact fun _ _ _ => rfl
  | cancel _ hlock => exact fun _ _ _ => h _ _ hlock
  | start | check | warn | interrupt | finish | fail | complete | raise => exact h

/-- Only a scope that is registered comes into the table. -/
theorem mem_table (hs : Step s e s') (hdrained : Drained s) (h : i ∈ s'.table) :
    i ∈ s.table ∨ e = .register i := by
  cases hs with
  | @register j _ hlock =>
    rw [table_free hlock]
    have h : i ∈ s.active ++ [j] := by simpa [table, hlock] using h
    rcases List.mem_append.mp h with h | h
    · exact .inl h
    · exact .inr (by rw [List.mem_singleton.mp h])
  | @look _ kept r rest _ hlock =>
    left
    have h : i ∈ (if s.cancelled r then kept else kept ++ [r]) ++ rest := h
    rw [table, hlock]
    grind
  | cancel _ hlock => exact .inl (by rw [table, hlock]; exact List.mem_cons_of_mem _ h)
  | «return» _ hlock =>
    have h : i ∈ s.active := h
    rw [hdrained _ _ hlock] at h
    cases h
  | sweep _ hlock | swept _ hlock | drain _ hlock => exact .inl (by simpa [table, hlock] using h)
  | start | check | warn | interrupt | finish | fail | complete | raise => exact .inl h

/-- Only a scope that is cancelled goes out of the table. -/
theorem table_of_mem (hs : Step s e s') (h : i ∈ s.table) : i ∈ s'.table ∨ s'.cancelled i = true := by
  cases hs with
  | register _ hlock => exact .inl (by simpa [table, hlock] using .inl (table_free hlock ▸ h))
  | @look _ kept r rest _ hlock =>
    rw [table, hlock] at h
    show i ∈ (if s.cancelled r then kept else kept ++ [r]) ++ rest ∨ s.cancelled i = true
    grind
  | @cancel _ r pending _ hlock =>
    rw [table, hlock] at h
    rcases List.mem_cons.mp h with rfl | h
    · exact .inr (by simp)
    · exact .inl h
  | «return» _ hlock =>
    rw [table, hlock] at h
    cases h
  | sweep _ hlock | swept _ hlock | drain _ hlock => exact .inl (by simpa [table, hlock] using h)
  | start | check | warn | interrupt | finish | fail | complete | raise => exact .inl h

theorem registers (hs : Step s (.register i) s') : s.phase i = .checked ∧ s'.phase i = .running ∧
    s'.cancelled i = s.cancelled i ∧ i ∈ s'.table := by
  cases hs with
  | register hphase hlock => exact ⟨hphase, by simp, rfl, by simp [table, hlock]⟩

/-- A scope that is not registered yet is cancelled by its own request, or by something else. -/
theorem of_cancelled (hs : Step s e s') (htable : ∀ i ∈ s.table, (s.phase i).registered = true)
    (hphase : (s'.phase i).registered = false) (h : s'.cancelled i = true) :
    s.cancelled i = true ∨ s.phase i = .warned ∨ e = .interrupt i := by
  cases hs with
  | @cancel _ r pending _ hlock =>
    left
    have hr : i ≠ r := by
      rintro rfl
      have := htable i (by rw [table, hlock]; exact List.mem_cons_self)
      exact Bool.false_ne_true (hphase.symm.trans this)
    simpa [hr] using h
  | warn | interrupt | fail | complete => grind [Phase.registered]
  | start | check | register | finish | sweep | look | swept | raise | drain | «return» => exact .inl h

end Step

/-! ## Schedules -/

/-- The request looked at the server's flag after a shutdown had set it. -/
def Warned (events : List Event) (i : Nat) : Prop :=
  ∃ before after c, events = before ++ Event.check i :: after ∧ Event.raise c ∈ before

/-- The request found the server shut down, or something else cancelled its scope. -/
def Excused (events : List Event) (i : Nat) : Prop := Warned events i ∨ Event.interrupt i ∈ events

/-- No request looks at the server's flag before a shutdown and registers its scope after it, unless
something else has cancelled the scope. -/
def InTime (events : List Event) : Prop :=
  ∀ before i after c, events = before ++ Event.register i :: after → Event.return c ∈ before →
    Excused before i

theorem excused_check (h : Event.raise c ∈ events) (i : Nat) :
    Excused (events ++ [Event.check i]) i :=
  .inl ⟨events, [], c, rfl, h⟩

theorem Excused.append (h : Excused events i) (e : Event) : Excused (events ++ [e]) i := by
  obtain ⟨before, after, c, rfl, hc⟩ | h := h
  · exact .inl ⟨before, after ++ [e], c, by simp, hc⟩
  · exact .inr (List.mem_append_left _ h)

theorem excused_of_append {e : Event} (h : Excused (events ++ [e]) i) :
    Excused events i ∨ (e = .check i ∧ ∃ c, Event.raise c ∈ events) ∨ e = .interrupt i := by
  obtain ⟨before, after, c, heq, hc⟩ | h := h
  · rcases List.eq_nil_or_concat' after with rfl | ⟨after, e', rfl⟩
    · obtain ⟨rfl, he⟩ := List.append_inj' heq rfl
      exact .inr (.inl ⟨List.singleton_inj.mp he, c, hc⟩)
    · rw [← List.cons_append, ← List.append_assoc] at heq
      obtain ⟨rfl, -⟩ := List.append_inj' heq rfl
      exact .inl (.inl ⟨before, after, c, rfl, hc⟩)
  · rcases List.mem_append.mp h with h | h
    · exact .inl (.inr h)
    · exact .inr (.inr (List.mem_singleton.mp h).symm)

theorem InTime.prefix (h : InTime (events ++ more)) : InTime events := by
  intro before i after c heq hc
  exact h before i (after ++ more) c (by simp [heq]) hc

/-! ## What holds after any events -/

/-- What the events say of the state they lead to. -/
structure Agrees (events : List Event) (s : RawHttpServer) : Prop where
  shutdown : s.shutdown = true ↔ ∃ c, Event.raise c ∈ events
  returned : ∀ c, s.call c = .returned ↔ Event.return c ∈ events
  warned : ∀ i, s.phase i = .warned → Excused events i
  early : ∀ i, (s.phase i).registered = false → s.cancelled i = true → Excused events i
  excused : ∀ i, Excused events i → s.phase i = .warned ∨ s.cancelled i = true
  table : ∀ i ∈ s.table, (s.phase i).registered = true
  covered : ∀ i, s.phase i = .running → s.cancelled i = true ∨ i ∈ s.table
  drained : s.Drained

theorem Agrees.new : Agrees [] .new where
  shutdown := by simp [RawHttpServer.new]
  returned c := by simp [RawHttpServer.new]
  warned i := nofun
  early i _ := nofun
  excused i h := by simp [Excused, Warned] at h
  table i := nofun
  covered i := nofun
  drained c pending := nofun

theorem Agrees.step (h : Agrees events s) (hs : Step s e s') : Agrees (events ++ [e]) s' where
  shutdown := by
    rw [hs.shutdown, h.shutdown]
    simp only [List.mem_append, List.mem_singleton, exists_or, eq_comm]
  returned c := by
    rw [hs.call_returned, h.returned]
    simp only [List.mem_append, List.mem_singleton, eq_comm]
  warned i hi := by
    obtain hi | ⟨rfl, hdown⟩ := hs.warned hi
    · exact (h.warned i hi).append e
    · obtain ⟨c, hc⟩ := h.shutdown.mp hdown
      exact excused_check hc i
  early i hphase hi := by
    have hearly : (s.phase i).registered = false := by
      cases hreg : (s.phase i).registered with
      | false => rfl
      | true => exact absurd (hs.registered hreg) (by simp [hphase])
    obtain hi | hi | rfl := hs.of_cancelled h.table hphase hi
    · exact (h.early i hearly hi).append e
    · exact (h.warned i hi).append e
    · exact .inr (List.mem_append_right _ (List.mem_singleton_self _))
  excused i hi := by
    obtain hi | ⟨rfl, hraise⟩ | rfl := excused_of_append hi
    · obtain hi | hi := h.excused i hi
      · exact hs.of_warned hi
      · exact .inr (hs.cancelled hi)
    · exact .inl (hs.warned_of_check (h.shutdown.mpr hraise))
    · cases hs
      exact .inr (by simp)
  table i hi := by
    obtain hi | rfl := hs.mem_table h.drained hi
    · exact hs.registered (h.table i hi)
    · rw [hs.registers.2.1]
      rfl
  covered i hi := by
    obtain hi | rfl := hs.running hi
    · obtain hi | hi := h.covered i hi
      · exact .inl (hs.cancelled hi)
      · exact (hs.table_of_mem hi).symm
    · exact .inr hs.registers.2.2.2
  drained := hs.drained h.drained

theorem Reaches.agrees (h : Reaches events s) : Agrees events s := by
  induction h with
  | new => exact .new
  | step _ hs ih => exact ih.step hs

theorem quiet_of_inTime (h : Reaches events s) (htime : InTime events) : Quiet s := by
  induction h with
  | new => exact fun _ _ => nofun
  | @step events s e s' h hs ih =>
    have hquiet := ih htime.prefix
    rintro ⟨c, hc⟩ i hi
    obtain hc | rfl := (hs.call_returned c).mp hc
    · obtain hi | rfl := hs.running hi
      · exact hs.cancelled (hquiet ⟨c, hc⟩ i hi)
      · -- the scope is registered after a shutdown has returned
        have hexcused := htime events i [] c rfl ((h.agrees.returned c).mp hc)
        obtain ⟨hphase, -, hsame, -⟩ := hs.registers
        obtain hwarned | hcancelled := h.agrees.excused i hexcused
        · cases hphase.symm.trans hwarned
        · rw [hsame, hcancelled]
    · -- the shutdown that returns has cancelled the whole table
      obtain hi | hi := (h.step hs).agrees.covered i hi
      · exact hi
      · cases hs with
        | «return» _ hlock =>
          have hi : i ∈ s.active := hi
          rw [h.agrees.drained _ _ hlock] at hi
          cases hi

theorem inTime_of_quiet (h : Reaches events s)
    (hquiet : ∀ before s, before <+: events → Reaches before s → Quiet s) : InTime events := by
  induction h with
  | new => exact fun before i after c heq => by simp at heq
  | @step events s e s' h hs ih =>
    have htime := ih fun before s hpre => hquiet before s (hpre.trans (List.prefix_append _ _))
    intro before i after c heq hc
    rcases List.eq_nil_or_concat' after with rfl | ⟨after, e', rfl⟩
    · obtain ⟨rfl, he⟩ := List.append_inj' heq rfl
      cases he
      obtain ⟨hphase, hrunning, hsame, -⟩ := hs.registers
      have hreturned : s'.call c = .returned :=
        (hs.call_returned c).mpr (.inl ((h.agrees.returned c).mpr hc))
      have hcancelled := hquiet _ s' (List.prefix_refl _) (h.step hs) ⟨c, hreturned⟩ i hrunning
      rw [hsame] at hcancelled
      exact h.agrees.early i (by rw [hphase]; rfl) hcancelled
    · rw [← List.cons_append, ← List.append_assoc] at heq
      obtain ⟨rfl, -⟩ := List.append_inj' heq rfl
      exact htime before i after c rfl hc

/-- Whatever the order of the steps, handlers that run after a shutdown has returned are cancelled
at every point exactly when every scope is registered in time. -/
theorem shutdown_cancels_iff (h : Reaches events s) :
    (∀ before s, before <+: events → Reaches before s → Quiet s) ↔ InTime events := by
  refine ⟨inTime_of_quiet h, fun htime before s hpre hreach => ?_⟩
  obtain ⟨more, rfl⟩ := hpre
  exact quiet_of_inTime hreach htime.prefix

/-! ## A request between two steps -/

theorem shutdown_cancels_iff_registered : ∃ s,
    Reaches [.start 0, .check 0, .register 0, .raise 0, .drain 0, .cancel 0, .return 0] s ∧
      ((∀ before s, before <+: [.start 0, .check 0, .register 0, .raise 0, .drain 0, .cancel 0,
          .return 0] → Reaches before s → Quiet s) ↔
        InTime [.start 0, .check 0, .register 0, .raise 0, .drain 0, .cancel 0, .return 0]) := by
  have h : Reaches [.start 0, .check 0, .register 0, .raise 0, .drain 0, .cancel 0, .return 0] _ :=
    ((((((Reaches.new.step (.start rfl)).step (.check rfl)).step (.register rfl rfl)).step
      (.raise rfl)).step (.drain rfl rfl)).step (.cancel rfl rfl)).step (.return rfl rfl)
  exact ⟨_, h, shutdown_cancels_iff h⟩

/-- A request looks at the server's flag, the server is shut down, and then the scope of the request
is registered: its handler runs and is never cancelled. -/
theorem registered_after_shutdown : ∃ s,
    Reaches [.start 0, .check 0, .raise 0, .drain 0, .return 0, .register 0] s ∧
      s.call 0 = .returned ∧ s.phase 0 = .running ∧ s.cancelled 0 = false ∧ ¬Quiet s := by
  have h : Reaches [.start 0, .check 0, .raise 0, .drain 0, .return 0, .register 0] _ :=
    (((((Reaches.new.step (.start rfl)).step (.check rfl)).step (.raise rfl)).step
      (.drain rfl rfl)).step (.return rfl rfl)).step (.register rfl rfl)
  exact ⟨_, h, rfl, rfl, rfl, fun hquiet => nomatch hquiet ⟨0, rfl⟩ 0 rfl⟩

end SimAgentNet.Server.RawHttp
