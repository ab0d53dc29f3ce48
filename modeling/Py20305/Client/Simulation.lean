import Py20305.Client.Health
import Py20305.Lib.Machine
import Py20305.Lib.Turns

/-!
The operator-triggered loss of communications (`client/comm_loss_simulation.py`, its lifecycle in
`client/csip_client.py` and the suspended listener in `subscription/notification_server.py`).

Calls of `simulate_comm_loss` and `clear_comm_loss_simulation` and the timers that end a window take
turns under one lock, while requests and notification handlers come and go. Main results: nothing
gets through a closed gate (`isolated`), the client gets out of a simulation by itself
(`always_reopens`), and nothing else ends one early (`opens_by`).
-/

namespace Py20305.Simulation

open Retry

/-! ### The gate -/

/-- `PHASE_*`. -/
inductive Phase where
  | inactive
  | active
  | recovering
  | recovered
  | recoveryFailed
  deriving DecidableEq, Repr

/-- `CommLossSimulation`. -/
structure CommLossSimulation where
  active : Bool := false
  started : Option ℚ := none
  expires : Option ℚ := none
  phase : Phase := .inactive
  detail : Option String := none
  inFlight : Int := 0
  idle : Bool := true

namespace CommLossSimulation

variable (gate : CommLossSimulation)

def arm (now expiresAt : ℚ) : CommLossSimulation :=
  { gate with
    active := true, started := some now, expires := some expiresAt, phase := .active,
    detail := none }

def disarm : CommLossSimulation :=
  { gate with active := false, expires := none, phase := .recovering, detail := none }

def abort : CommLossSimulation :=
  { gate with
    active := false, started := none, expires := none, phase := .inactive, detail := none }

def noteRecovered : CommLossSimulation :=
  { gate with phase := .recovered, started := none, detail := none }

def noteRecoveryFailed (detail : String) : CommLossSimulation :=
  { gate with phase := .recoveryFailed, detail := some detail }

def noteRequestStarted : CommLossSimulation :=
  { gate with inFlight := gate.inFlight + 1, idle := false }

def noteRequestFinished : CommLossSimulation :=
  if gate.inFlight - 1 ≤ 0 then { gate with inFlight := 0, idle := true }
  else { gate with inFlight := gate.inFlight - 1 }

end CommLossSimulation

/-! ### The lifecycle -/

/-- What one call of `simulate_comm_loss` fixes when it has the lock. -/
structure Window where
  generation : Nat
  expiresAt : ℚ
  deadline : ℚ
  deriving DecidableEq, Repr

/-- The tasks that take the lifecycle lock. -/
inductive Call where
  /-- `simulate_comm_loss`. -/
  | simulate (duration drainTimeout : ℚ)
  /-- `clear_comm_loss_simulation`. -/
  | clear
  /-- `_expire_comm_loss_simulation`. -/
  | expire (deadline : ℚ) (generation : Nat)
  deriving DecidableEq, Repr

/-- Where a task is. -/
inductive Stage where
  /-- It has been called and is on its way to the lock. -/
  | calling
  /-- A timer before its deadline. -/
  | sleeping
  /-- It waits for the lock. -/
  | queued
  /-- The listener drains: the handlers that ran when it was suspended. -/
  | suspending (pending : List Nat) (window : Window)
  /-- The requests drain; whether the handlers did. -/
  | arming (window : Window) (notificationsDrained : Bool)
  | recovering
  | ended
  deriving DecidableEq, Repr

structure Operation where
  call : Call
  stage : Stage
  cancelled : Bool

/-- What a call of `simulate_comm_loss` returned of its window. -/
structure Report where
  window : Window
  requestsDrained : Bool
  notificationsDrained : Bool
  deriving DecidableEq, Repr

/-- The client, as far as simulations go. -/
structure Client where
  /-- It has a notification server. -/
  listens : Bool
  gate : CommLossSimulation := {}
  /-- The request contexts with `_counted` set. -/
  counted : List Nat := []
  health : Health := {}
  suspended : Bool := false
  /-- `_background_tasks`. -/
  handlers : List Nat := []
  lock : AsyncLock Nat := .free
  generation : Nat := 0
  /-- `_comm_loss_simulation_expiry`. -/
  expiry : Option Nat := none
  op : Nat → Operation := fun _ => ⟨.clear, .ended, false⟩
  next : Nat := 0
  commsLoss : Bool := false
  monotonic : ℚ := 0
  wall : ℚ := 0
  shutdown : Bool := false
  /-- The last window opened, as the operator was told of it. -/
  reported : Option Report := none

namespace Client

variable (s : Client)

def isCancelled (i : Nat) : Bool := (s.op i).cancelled

def make (operation : Operation) : Client :=
  { s with op := Function.update s.op s.next operation, next := s.next + 1 }

def setStage (i : Nat) (stage : Stage) : Client :=
  { s with op := Function.update s.op i { s.op i with stage := stage } }

def cancelOp (i : Nat) : Client :=
  { s with op := Function.update s.op i { s.op i with cancelled := true } }

/-- The task is over, and the lock released. -/
def leave (i : Nat) : Client := { s.setStage i .ended with lock := s.lock.release }

/-- `_cancel_comm_loss_simulation_expiry`, called by task `i`. -/
def cancelExpiry (i : Nat) : Client :=
  match s.expiry with
  | none => s
  | some e => if e = i then s else { s.cancelOp e with expiry := none }

/-- `resume`, if there is a listener. -/
def resume : Client := { s with suspended := false }

/-- The end of `simulate_comm_loss`: the timer is made. -/
def opened (i : Nat) (window : Window) (notificationsDrained requestsDrained : Bool) : Client :=
  { (s.make ⟨.expire window.deadline window.generation, .sleeping, false⟩).leave i with
    expiry := some s.next
    reported := some ⟨window, requestsDrained, notificationsDrained⟩ }

/-- `arm_comm_loss_simulation`, up to its wait if it has to wait. -/
def armGate (i : Nat) (drainTimeout : ℚ) (window : Window) (notificationsDrained : Bool) : Client :=
  let armed := { s with gate := s.gate.arm s.wall window.expiresAt }
  if s.gate.idle ∧ 0 < drainTimeout then armed.opened i window notificationsDrained true
  else armed.setStage i (.arming window notificationsDrained)

/-- `simulate_comm_loss`, once it has the lock. -/
def beginSimulation (i : Nat) (duration drainTimeout : ℚ) : Client :=
  let mine := { s with generation := s.generation + 1 }.cancelExpiry i
  let window : Window := ⟨mine.generation, s.wall + duration, s.monotonic + duration⟩
  if s.listens then
    let shut := { mine with suspended := true }
    if s.handlers = [] then shut.armGate i drainTimeout window true
    else shut.setStage i (.suspending s.handlers window)
  else mine.armGate i drainTimeout window true

/-- A simulation that was cancelled while it drained. -/
def rollBack (i : Nat) : Client := ({ s with gate := s.gate.abort }.resume).leave i

/-- `_clear_comm_loss_simulation_locked`, up to the recovery. -/
def clearLocked (i : Nat) : Client :=
  ({ s.cancelExpiry i with gate := s.gate.disarm }.resume).setStage i .recovering

/-- A task has the lock. -/
def begin_ (i : Nat) : Client :=
  match (s.op i).call with
  | .simulate duration drainTimeout => s.beginSimulation i duration drainTimeout
  | .clear => s.clearLocked i
  | .expire _ generation =>
      if generation ≠ s.generation then s.leave i
      else if !s.gate.active then s.leave i
      else s.clearLocked i

/-- `async with self._comm_loss_lifecycle`. -/
def enter (i : Nat) : Client :=
  if s.lock.isOpen s.isCancelled then { s with lock := s.lock.take i }.begin_ i
  else { s.setStage i .queued with lock := s.lock.enqueue i }

/-- The recovery is over, and how it failed. -/
def recovered (i : Nat) (failure : Option String) : Client :=
  let gate :=
    match failure with
    | some detail => s.gate.noteRecoveryFailed detail
    | none =>
        if s.commsLoss then
          s.gate.noteRecoveryFailed
            "still in loss-of-communications mode; rediscovery did not complete"
        else s.gate.noteRecovered
  { s with gate := gate }.leave i

/-- A cancelled task unwinds. -/
def unwind (i : Nat) : Client :=
  match (s.op i).stage with
  | .sleeping => s.setStage i .ended
  | .queued => { s.setStage i .ended with lock := s.lock.leave i }
  | .suspending _ _ | .arming _ _ => s.rollBack i
  | .recovering => s.leave i
  | .calling | .ended => s

def record (note : Note) : Client := { s with health := s.health.record note }

/-- `_stop_comm_loss_simulation_expiry`, as shutdown calls it. -/
def stop : Client :=
  match s.expiry with
  | none => { s with shutdown := true }
  | some e => { s.cancelOp e with expiry := none, shutdown := true }

end Client

/-- How a request that was let through ends, as far as it is recorded. -/
inductive Outcome where
  | answered (now : Int)
  /-- It failed by itself. -/
  | failed
  /-- It was cancelled, or is an attempt of a write that is made again. -/
  | unrecorded
  deriving DecidableEq, Repr

inductive Step where
  /-- `__aenter__` of a request's context. A request that meets the closed gate may be recorded. -/
  | requestEnters (r : Nat) (recorded : Bool)
  /-- The request is answered and recorded, before its context is left. -/
  | requestAnswered (r : Nat) (now : Int)
  /-- Its context is left, or entering it failed. -/
  | requestEnds (r : Nat) (outcome : Outcome)
  | resetSession
  /-- A notification is accepted. -/
  | notified (h : Nat)
  | handled (h : Nat)
  | simulate (duration drainTimeout : ℚ)
  | clear
  /-- The deadline of a timer has come. -/
  | wake (i : Nat)
  /-- The next waiter of the lifecycle lock goes on. -/
  | granted
  /-- The listener's drain is over, or has timed out. -/
  | suspended (i : Nat)
  /-- The requests have drained, or that has timed out. -/
  | drained (i : Nat) (inTime : Bool)
  | recovered (i : Nat) (failure : Option String)
  /-- The caller of an operation is cancelled. -/
  | cancelCall (i : Nat)
  | unwind (i : Nat)
  | commsLoss (on : Bool)
  | clock (elapsed wall : ℚ)
  | shutdown
  deriving DecidableEq, Repr

/-- The timeout of a call's drains. -/
def Call.drainTimeout : Call → ℚ
  | .simulate _ drainTimeout => drainTimeout
  | _ => 0

/-- Calls are made by operators, timers by the client itself. -/
def Call.isTimer : Call → Bool
  | .expire _ _ => true
  | _ => false

/-- The client as a machine. -/
def client : Machine where
  State := Client
  Label := Step
  step
    | .requestEnters r recorded, s =>
        if s.gate.active then
          some (if recorded then s.record (.failed .simulated) else s)
        else if r ∈ s.counted then none
        else some { s with gate := s.gate.noteRequestStarted, counted := r :: s.counted }
    | .requestAnswered r now, s =>
        if r ∈ s.counted then some (s.record (.contact now)) else none
    | .requestEnds r outcome, s =>
        if r ∈ s.counted then
          let done :=
            { s with gate := s.gate.noteRequestFinished, counted := s.counted.erase r }
          some <|
            match outcome with
            | .answered now => done.record (.contact now)
            | .failed => done.record (.failed .genuine)
            | .unrecorded => done
        else none
    | .resetSession, s => some (s.record .reset)
    | .notified h, s =>
        if !s.listens || h ∈ s.handlers then none
        else if s.suspended then some s
        else some { s with handlers := h :: s.handlers }
    | .handled h, s =>
        if h ∈ s.handlers then some { s with handlers := s.handlers.erase h } else none
    | .simulate duration drainTimeout, s =>
        if duration ≤ 0 ∨ drainTimeout < 0 then some s
        else some ((s.make ⟨.simulate duration drainTimeout, .calling, false⟩).enter s.next)
    | .clear, s => some ((s.make ⟨.clear, .calling, false⟩).enter s.next)
    | .wake i, s =>
        match (s.op i).call with
        | .expire deadline _ =>
            if (s.op i).stage = .sleeping ∧ (s.op i).cancelled = false ∧ deadline ≤ s.monotonic then
              some (s.enter i)
            else none
        | _ => none
    | .granted, s =>
        (s.lock.next s.isCancelled).map fun i => { s with lock := s.lock.grant i }.begin_ i
    | .suspended i, s =>
        match (s.op i).stage with
        | .suspending pending window =>
            if (s.op i).cancelled then none
            else
              some (s.armGate i (s.op i).call.drainTimeout window
                (pending.all fun h => h ∉ s.handlers))
        | _ => none
    | .drained i inTime, s =>
        match (s.op i).stage with
        | .arming window notificationsDrained =>
            if (s.op i).cancelled ∨ (inTime ∧ !s.gate.idle) then none
            else some (s.opened i window notificationsDrained inTime)
        | _ => none
    | .recovered i failure, s =>
        if (s.op i).stage = .recovering then some (s.recovered i failure) else none
    | .cancelCall i, s =>
        if i < s.next ∧ !(s.op i).call.isTimer ∧ (s.op i).stage ≠ .ended then some (s.cancelOp i)
        else none
    | .unwind i, s =>
        if (s.op i).cancelled ∧ (s.op i).stage ≠ .ended then some (s.unwind i) else none
    | .commsLoss on, s => some { s with commsLoss := on }
    | .clock elapsed wall, s =>
        if 0 ≤ elapsed then some { s with monotonic := s.monotonic + elapsed, wall := wall }
        else none
    | .shutdown, s => some s.stop

/-! ### What every step keeps -/

def Stage.place : Stage → Place
  | queued => .waiting
  | suspending _ _ | arming _ _ | recovering => .holding
  | calling | sleeping | ended => .elsewhere

namespace Client

variable (s : Client)

def places (i : Nat) : Place := (s.op i).stage.place

/-- Timer `e` has not had its turn. -/
def Pending (e : Nat) : Prop := (s.op e).stage = .sleeping ∨ (s.op e).stage = .queued

/-- The count of requests is that of the contexts. -/
structure Books : Prop where
  inFlight : s.gate.inFlight = s.counted.length
  idle : s.gate.idle = true ↔ s.counted = []

/-- What holds whosever turn it is. A timer of the current generation is that of the window the
operator was told of. -/
structure Base : Prop where
  unmade : ∀ i, s.next ≤ i → (s.op i).stage = .ended
  deaf : s.listens = false → s.handlers = [] ∧ s.suspended = false
  timers : ∀ i deadline g, (s.op i).call = .expire deadline g → g ≤ s.generation ∧
    (g = s.generation → ∃ r, s.reported = some r ∧ r.window.generation = g ∧
      r.window.deadline = deadline)
  awake : ∀ i deadline g, (s.op i).call = .expire deadline g → (s.op i).stage = .queued →
    deadline ≤ s.monotonic
  told : ∀ r, s.reported = some r → r.window.generation ≤ s.generation
  expiry : ∀ e, s.expiry = some e → e < s.next ∧ (s.op e).cancelled = false ∧
    ∃ deadline, (s.op e).call = .expire deadline s.generation

/-- Nobody is at work on the window: where it is open its timer will have its turn, the listener is
suspended, and what was reported as drained has drained. -/
structure Settled : Prop where
  suspended : s.gate.active = true → s.listens = true → s.suspended = true
  active : s.suspended = true → s.gate.active = true
  timer : s.gate.active = true → s.shutdown = true ∨ ∃ e, s.expiry = some e ∧ s.Pending e
  told : s.gate.active = true → ∀ r, s.reported = some r → r.window.generation = s.generation →
    (r.requestsDrained = true → s.counted = []) ∧ (r.notificationsDrained = true → s.handlers = [])

/-- A window is being opened. -/
structure Opening (i : Nat) (window : Window) : Prop where
  current : window.generation = s.generation
  call : (s.op i).call.isTimer = false
  expiry : s.expiry = none
  timers : ∀ j deadline g, (s.op j).call = .expire deadline g → g < s.generation
  told : ∀ r, s.reported = some r → r.window.generation < s.generation

/-- What the holder of the lock is at. -/
def Doing (i : Nat) : Stage → Prop
  | .suspending pending window =>
      s.Opening i window ∧ s.listens = true ∧ s.suspended = true ∧ ∀ h ∈ s.handlers, h ∈ pending
  | .arming window notificationsDrained =>
      s.Opening i window ∧ s.gate.active = true ∧ (s.listens = true → s.suspended = true) ∧
        (notificationsDrained = true → s.handlers = [])
  | .recovering => s.gate.active = false ∧ s.suspended = false
  | _ => True

/-- The invariant. -/
structure Sound : Prop where
  books : s.Books
  base : s.Base
  turns : TakeTurns s.places s.lock
  doing : ∀ i, s.lock.holder = some i → s.Doing i (s.op i).stage
  settled : s.lock.holder = none → s.Settled

/-- Task `i` has just been given the lock. -/
structure Taken (i : Nat) : Prop where
  books : s.Books
  base : s.Base
  owns : Owns s.places s.lock i
  made : i < s.next
  settled : s.Settled

variable {s} {i : Nat}

/-! Small facts -/

@[simp] theorem op_setStage (i : Nat) (st : Stage) (j : Nat) :
    (s.setStage i st).op j = if j = i then { s.op i with stage := st } else s.op j := by
  by_cases same : j = i
  · subst same
    rw [if_pos rfl]
    exact Function.update_self ..
  · rw [if_neg same]
    exact Function.update_of_ne same ..

theorem call_setStage (st : Stage) (j : Nat) : ((s.setStage i st).op j).call = (s.op j).call := by
  rw [op_setStage]
  split
  · rename_i same
    rw [same]
  · rfl

theorem cancelled_setStage (st : Stage) (j : Nat) :
    ((s.setStage i st).op j).cancelled = (s.op j).cancelled := by
  rw [op_setStage]
  split
  · rename_i same
    rw [same]
  · rfl

theorem places_setStage (st : Stage) :
    (s.setStage i st).places = Function.update s.places i st.place := by
  funext j
  rw [places, op_setStage]
  by_cases same : j = i
  · simp [same]
  · simp [same, places]

@[simp] theorem op_cancelOp (i j : Nat) :
    (s.cancelOp i).op j = if j = i then { s.op i with cancelled := true } else s.op j := by
  by_cases same : j = i
  · subst same
    rw [if_pos rfl]
    exact Function.update_self ..
  · rw [if_neg same]
    exact Function.update_of_ne same ..

theorem call_cancelOp (j : Nat) : ((s.cancelOp i).op j).call = (s.op j).call := by
  rw [op_cancelOp]
  split
  · rename_i same
    rw [same]
  · rfl

theorem stage_cancelOp (j : Nat) : ((s.cancelOp i).op j).stage = (s.op j).stage := by
  rw [op_cancelOp]
  split
  · rename_i same
    rw [same]
  · rfl

theorem queued_of_place (waits : s.places i = .waiting) : (s.op i).stage = .queued := by
  cases stage : (s.op i).stage with
  | queued => rfl
  | calling | sleeping | suspending | arming | recovering | ended =>
      rw [places, stage] at waits
      cases waits

theorem places_cancelOp : (s.cancelOp i).places = s.places :=
  funext fun j => congrArg Stage.place (stage_cancelOp j)

@[simp] theorem op_make_self (operation : Operation) : (s.make operation).op s.next = operation :=
  Function.update_self ..

theorem op_make_of_ne {operation : Operation} {j : Nat} (other : j ≠ s.next) :
    (s.make operation).op j = s.op j :=
  Function.update_of_ne other ..

theorem places_make (operation : Operation) :
    (s.make operation).places = Function.update s.places s.next operation.stage.place := by
  funext j
  by_cases same : j = s.next
  · subst same
    simp [places]
  · rw [places, op_make_of_ne same, Function.update_of_ne same]
    rfl

theorem Base.elsewhere (base : s.Base) : s.places s.next = .elsewhere := by
  rw [places, base.unmade s.next le_rfl]
  rfl

end Client

/-! ### Turns of the lock -/

section Steps

variable {s t : Client} {i : Nat}

theorem Client.Base.setStage (base : s.Base) (made : i < s.next) {st : Stage}
    (due : ∀ deadline g, (s.op i).call = .expire deadline g → st = .queued →
      deadline ≤ s.monotonic) : (s.setStage i st).Base where
  unmade j later := by
    rw [Client.op_setStage, if_neg (by rintro rfl; exact absurd made (Nat.not_lt.mpr later))]
    exact base.unmade j later
  deaf := base.deaf
  timers j deadline g timer :=
    base.timers j deadline g ((Client.call_setStage st j).symm.trans timer)
  awake j deadline g timer queued := by
    rw [Client.call_setStage] at timer
    rw [Client.op_setStage] at queued
    by_cases same : j = i
    · subst same
      rw [if_pos rfl] at queued
      exact due deadline g timer queued
    · rw [if_neg same] at queued
      exact base.awake j deadline g timer queued
  told := base.told
  expiry e listed := by
    rw [Client.cancelled_setStage, Client.call_setStage]
    exact base.expiry e listed

theorem Client.Opening.setStage {window : Window} (opening : s.Opening i window) (st : Stage) :
    (s.setStage i st).Opening i window where
  current := opening.current
  call := by rw [Client.call_setStage]; exact opening.call
  expiry := opening.expiry
  timers j deadline g timer :=
    opening.timers j deadline g ((Client.call_setStage st j).symm.trans timer)
  told := opening.told

theorem Client.Doing.setStage {st : Stage} (doing : s.Doing i st) :
    (s.setStage i st).Doing i st := by
  cases st with
  | suspending pending window => exact ⟨doing.1.setStage _, doing.2⟩
  | arming window drained => exact ⟨doing.1.setStage _, doing.2⟩
  | recovering => exact doing
  | calling | sleeping | queued | ended => trivial

/-- What does not touch the window leaves what the holder is at. -/
theorem Client.Doing.frame {st : Stage} (doing : s.Doing i st)
    (own : (t.op i).call = (s.op i).call)
    (timers : ∀ j deadline g, (t.op j).call = .expire deadline g →
      (s.op j).call = .expire deadline g)
    (generation : t.generation = s.generation) (reported : t.reported = s.reported)
    (expiry : s.expiry = none → t.expiry = none) (active : t.gate.active = s.gate.active)
    (listens : t.listens = s.listens) (suspended : t.suspended = s.suspended)
    (handlers : ∀ h ∈ t.handlers, h ∈ s.handlers) : t.Doing i st := by
  have opening (window : Window) (before : s.Opening i window) : t.Opening i window := by
    refine ⟨before.current.trans generation.symm, ?_, expiry before.expiry,
      fun j deadline g timer => ?_, fun r same => ?_⟩
    · rw [own]
      exact before.call
    · rw [generation]
      exact before.timers j deadline g (timers j deadline g timer)
    · rw [generation]
      exact before.told r (reported.symm.trans same)
  cases st with
  | suspending pending window =>
      obtain ⟨before, hears, shut, drains⟩ := doing
      exact ⟨opening window before, listens.trans hears, suspended.trans shut,
        fun h running => drains h (handlers h running)⟩
  | arming window drained =>
      obtain ⟨before, on, deaf, silent⟩ := doing
      refine ⟨opening window before, active.trans on, ?_, fun done => ?_⟩
      · rwa [listens, suspended]
      · refine List.eq_nil_iff_forall_not_mem.mpr fun h running => ?_
        have before := handlers h running
        rw [silent done] at before
        cases before
  | recovering => exact ⟨active.trans doing.1, suspended.trans doing.2⟩
  | calling | sleeping | queued | ended => trivial

/-- The holder goes on to another stage of its turn. -/
theorem sound_working (st : Stage) (books : s.Books) (base : s.Base) (owns : Owns s.places s.lock i)
    (made : i < s.next) (holds : st.place = .holding) (doing : s.Doing i st) :
    (s.setStage i st).Sound where
  books := ⟨books.inFlight, books.idle⟩
  base := base.setStage made fun _ _ _ queued => by rw [queued] at holds; cases holds
  turns := by
    rw [Client.places_setStage, holds]
    exact owns.holds
  doing j held := by
    obtain rfl : i = j := Option.some.inj (owns.holder.symm.trans held)
    rw [Client.op_setStage, if_pos rfl]
    exact doing.setStage
  settled free := by
    have held : some i = none := owns.holder.symm.trans free
    cases held

/-- The holder ends its turn. -/
theorem sound_leave (books : s.Books) (base : s.Base) (owns : Owns s.places s.lock i)
    (made : i < s.next) (settled : s.Settled)
    (apart : s.gate.active = true → s.expiry ≠ some i) : (s.leave i).Sound where
  books := ⟨books.inFlight, books.idle⟩
  base := by
    have after : (s.setStage i .ended).Base :=
      base.setStage made fun _ _ _ queued => by cases queued
    exact ⟨after.unmade, after.deaf, after.timers, after.awake, after.told, after.expiry⟩
  turns := by
    have places : (s.leave i).places = Function.update s.places i .elsewhere :=
      Client.places_setStage .ended
    rw [places]
    exact owns.release
  doing j held := by cases held
  settled _ := by
    refine ⟨settled.suspended, settled.active, fun on => ?_, settled.told⟩
    rcases settled.timer on with down | ⟨e, listed, pending⟩
    · exact .inl down
    · refine .inr ⟨e, listed, ?_⟩
      have other : e ≠ i := fun same => apart on (same ▸ listed)
      have stage : ((s.leave i).op e).stage = (s.op e).stage :=
        congrArg Operation.stage ((Client.op_setStage i .ended e).trans (if_neg other))
      rw [Client.Pending, stage]
      exact pending

theorem sound_opened (books : s.Books) (base : s.Base) (owns : Owns s.places s.lock i)
    (made : i < s.next) {window : Window} (opening : s.Opening i window)
    (on : s.gate.active = true) (suspended : s.listens = true → s.suspended = true)
    {notificationsDrained requestsDrained : Bool}
    (handlers : notificationsDrained = true → s.handlers = [])
    (requests : requestsDrained = true → s.counted = []) :
    (s.opened i window notificationsDrained requestsDrained).Sound := by
  let timer : Operation := ⟨.expire window.deadline window.generation, .sleeping, false⟩
  let told : Client :=
    { s.make timer with
      expiry := some s.next
      reported := some ⟨window, requestsDrained, notificationsDrained⟩ }
  change (told.leave i).Sound
  have self : told.op s.next = timer := Client.op_make_self timer
  have other {j : Nat} (apart : j ≠ s.next) : told.op j = s.op j := Client.op_make_of_ne apart
  have places : told.places = s.places := by
    have updated : told.places = Function.update s.places s.next .elsewhere :=
      Client.places_make timer
    rw [updated, ← base.elsewhere, Function.update_eq_self]
  refine sound_leave ⟨books.inFlight, books.idle⟩ ?_ (places ▸ owns) (Nat.lt_succ_of_lt made) ?_ ?_
  · refine ⟨fun j later => ?_, base.deaf, fun j deadline g call => ?_,
      fun j deadline g call queued => ?_, fun r same => ?_, fun e same => ?_⟩
    · have later : s.next + 1 ≤ j := later
      rw [other (by omega)]
      exact base.unmade j (by omega)
    · by_cases same : j = s.next
      · rw [same, self] at call
        obtain ⟨rfl, rfl⟩ := Call.expire.inj call
        exact ⟨le_of_eq opening.current, fun _ => ⟨_, rfl, rfl, rfl⟩⟩
      · rw [other same] at call
        have before := opening.timers j deadline g call
        exact ⟨Nat.le_of_lt before, fun same => absurd same (Nat.ne_of_lt before)⟩
    · by_cases same : j = s.next
      · rw [same, self] at queued
        cases queued
      · rw [other same] at call queued
        exact base.awake j deadline g call queued
    · obtain rfl := Option.some.inj same
      exact le_of_eq opening.current
    · obtain rfl := Option.some.inj same
      refine ⟨Nat.lt_succ_self _, by rw [self], window.deadline, ?_⟩
      rw [self]
      exact congrArg (Call.expire window.deadline) opening.current
  · refine ⟨fun _ => suspended, fun _ => on, fun _ => .inr ⟨s.next, rfl, .inl ?_⟩,
      fun _ r same _ => ?_⟩
    · rw [self]
    · obtain rfl := Option.some.inj same
      exact ⟨requests, handlers⟩
  · rintro - same
    exact absurd (Option.some.inj same) (Nat.ne_of_gt made)

theorem sound_armGate (books : s.Books) (base : s.Base) (owns : Owns s.places s.lock i)
    (made : i < s.next) {window : Window} (opening : s.Opening i window)
    (suspended : s.listens = true → s.suspended = true) {drainTimeout : ℚ}
    {notificationsDrained : Bool} (handlers : notificationsDrained = true → s.handlers = []) :
    (s.armGate i drainTimeout window notificationsDrained).Sound := by
  let armed : Client := { s with gate := s.gate.arm s.wall window.expiresAt }
  have books' : armed.Books := ⟨books.inFlight, books.idle⟩
  have base' : armed.Base :=
    ⟨base.unmade, base.deaf, base.timers, base.awake, base.told, base.expiry⟩
  have opening' : armed.Opening i window :=
    ⟨opening.current, opening.call, opening.expiry, opening.timers, opening.told⟩
  unfold Client.armGate
  dsimp only
  split
  · rename_i at_once
    exact sound_opened books' base' owns made opening' rfl suspended handlers fun _ =>
      books.idle.mp at_once.1
  · exact sound_working (.arming _ _) books' base' owns made rfl
      ⟨opening', rfl, suspended, handlers⟩

/-! ### The beginning of a turn -/

theorem Client.Base.no_timer (base : s.Base) (call : (s.op i).call.isTimer = false) :
    s.expiry ≠ some i := by
  intro listed
  obtain ⟨-, -, deadline, timer⟩ := base.expiry i listed
  rw [timer] at call
  cases call

/-- The timer is cancelled and its handle dropped, unless the task is the timer. -/
theorem cancelExpiry_spec (s : Client) (i : Nat) : ∃ op expiry,
    s.cancelExpiry i = { s with op := op, expiry := expiry } ∧
      (∀ j, (op j).call = (s.op j).call ∧ (op j).stage = (s.op j).stage) ∧
      ∀ e, expiry = some e → e = i ∧ s.expiry = some e ∧ op = s.op := by
  unfold Client.cancelExpiry
  split
  · rename_i none_
    refine ⟨s.op, s.expiry, rfl, fun _ => ⟨rfl, rfl⟩, fun e listed => ?_⟩
    rw [none_] at listed
    cases listed
  · rename_i e listed
    split
    · rename_i own
      refine ⟨s.op, s.expiry, rfl, fun _ => ⟨rfl, rfl⟩, fun e' listed' => ?_⟩
      exact ⟨(Option.some.inj (listed'.symm.trans listed)).trans own, listed', rfl⟩
    · refine ⟨(s.cancelOp e).op, none, rfl, fun j => ?_, fun _ none_ => (by cases none_)⟩
      exact ⟨Client.call_cancelOp j, Client.stage_cancelOp j⟩

theorem sound_beginSimulation (taken : s.Taken i) (call : (s.op i).call.isTimer = false)
    (duration drainTimeout : ℚ) : (s.beginSimulation i duration drainTimeout).Sound := by
  obtain ⟨op, expiry, dropped, same, own⟩ :=
    cancelExpiry_spec { s with generation := s.generation + 1 } i
  have base := taken.base
  have none_ : expiry = none := by
    by_contra listed
    obtain ⟨e, listed⟩ := Option.ne_none_iff_exists'.mp listed
    obtain ⟨rfl, before, -⟩ := own e listed
    exact base.no_timer call before
  subst none_
  have timers (j : Nat) (deadline : ℚ) (g : Nat) (timer : (op j).call = .expire deadline g) :
      g < s.generation + 1 :=
    Nat.lt_succ_of_le (base.timers j deadline g ((same j).1.symm.trans timer)).1
  have told (r : Report) (listed : s.reported = some r) : r.window.generation < s.generation + 1 :=
    Nat.lt_succ_of_le (base.told r listed)
  -- What is so of the client in which the window is begun, suspended or not.
  have begun (suspended : Bool) (silent : s.listens = false → suspended = false) :
      let mine : Client :=
        { s with generation := s.generation + 1, op := op, expiry := none, suspended := suspended }
      mine.Books ∧ mine.Base ∧ Owns mine.places mine.lock i ∧
        mine.Opening i ⟨s.generation + 1, s.wall + duration, s.monotonic + duration⟩ := by
    refine ⟨⟨taken.books.inFlight, taken.books.idle⟩, ⟨fun j later => ?_, fun deaf => ?_,
      fun j deadline g timer => ?_, fun j deadline g timer queued => ?_, fun r listed => ?_,
      fun e listed => (by cases listed)⟩, ?_, ⟨rfl, ?_, rfl, timers, told⟩⟩
    · exact (same j).2.trans (base.unmade j later)
    · exact ⟨(base.deaf deaf).1, silent deaf⟩
    · have before := timers j deadline g timer
      exact ⟨Nat.le_of_lt before, fun now => absurd now (Nat.ne_of_lt before)⟩
    · exact base.awake j deadline g ((same j).1.symm.trans timer) ((same j).2.symm.trans queued)
    · exact Nat.le_of_lt (told r listed)
    · have places : (fun j => (op j).stage.place) = s.places :=
        funext fun j => congrArg Stage.place (same j).2
      change Owns (fun j => (op j).stage.place) s.lock i
      rw [places]
      exact taken.owns
    · exact (congrArg Call.isTimer (same i).1).trans call
  unfold Client.beginSimulation
  rw [dropped]
  dsimp only
  split
  · rename_i hears
    obtain ⟨books, base', owns, opening⟩ := begun true fun deaf => by rw [hears] at deaf; cases deaf
    split
    · rename_i silent
      exact sound_armGate books base' owns taken.made opening (fun _ => rfl) fun _ => silent
    · exact sound_working (.suspending _ _) books base' owns taken.made rfl
        ⟨opening, hears, rfl, fun h running => running⟩
  · rename_i deaf
    have deaf : s.listens = false := by simpa using deaf
    obtain ⟨books, base', owns, opening⟩ := begun s.suspended fun deaf => (base.deaf deaf).2
    refine sound_armGate books base' owns taken.made opening (fun hears => ?_)
      fun _ => (base.deaf deaf).1
    have hears : s.listens = true := hears
    rw [deaf] at hears
    cases hears

theorem sound_clearLocked (taken : s.Taken i) : (s.clearLocked i).Sound := by
  obtain ⟨op, expiry, dropped, same, own⟩ := cancelExpiry_spec s i
  have base := taken.base
  unfold Client.clearLocked
  rw [dropped]
  refine sound_working .recovering ⟨taken.books.inFlight, taken.books.idle⟩
    ⟨fun j later => ?_, fun deaf => ?_, fun j deadline g timer => ?_,
      fun j deadline g timer queued => ?_, base.told, fun e listed => ?_⟩ ?_ taken.made rfl
      ⟨rfl, rfl⟩
  · exact (same j).2.trans (base.unmade j later)
  · exact ⟨(base.deaf deaf).1, rfl⟩
  · exact base.timers j deadline g ((same j).1.symm.trans timer)
  · exact base.awake j deadline g ((same j).1.symm.trans timer) ((same j).2.symm.trans queued)
  · obtain ⟨-, before, rfl⟩ := own e listed
    exact base.expiry e before
  · have places : (fun j => (op j).stage.place) = s.places :=
      funext fun j => congrArg Stage.place (same j).2
    change Owns (fun j => (op j).stage.place) s.lock i
    rw [places]
    exact taken.owns

theorem sound_begin (taken : s.Taken i) : (s.begin_ i).Sound := by
  have leaves (apart : s.gate.active = true → s.expiry ≠ some i) : (s.leave i).Sound :=
    sound_leave taken.books taken.base taken.owns taken.made taken.settled apart
  unfold Client.begin_
  split
  · rename_i duration drainTimeout call
    exact sound_beginSimulation taken (by rw [call]; rfl) duration drainTimeout
  · exact sound_clearLocked taken
  · rename_i deadline generation call
    split
    · rename_i stale
      refine leaves fun _ listed => stale ?_
      obtain ⟨-, -, _, timer⟩ := taken.base.expiry i listed
      exact (Call.expire.inj (call.symm.trans timer)).2
    · split
      · rename_i off
        exact leaves fun on => by simp [on] at off
      · exact sound_clearLocked taken

theorem Client.Sound.taken (sound : s.Sound) (free : s.lock.holder = none) (made : i < s.next)
    {lock : AsyncLock Nat} (owns : Owns s.places lock i) : Client.Taken { s with lock := lock } i :=
  have base := sound.base
  have settled := sound.settled free
  { books := ⟨sound.books.inFlight, sound.books.idle⟩
    base := ⟨base.unmade, base.deaf, base.timers, base.awake, base.told, base.expiry⟩
    owns := owns
    made := made
    settled := ⟨settled.suspended, settled.active, settled.timer, settled.told⟩ }

/-- A task asks for the lock. -/
theorem sound_enter (sound : s.Sound) (made : i < s.next) (apart : s.places i = .elsewhere)
    (due : ∀ deadline g, (s.op i).call = .expire deadline g → deadline ≤ s.monotonic) :
    (s.enter i).Sound := by
  unfold Client.enter
  split
  · rename_i opens
    have free := AsyncLock.holder_of_isOpen opens
    exact sound_begin (sound.taken free made (sound.turns.take apart free))
  · have base : (s.setStage i .queued).Base :=
      sound.base.setStage made fun deadline g timer _ => due deadline g timer
    refine ⟨⟨sound.books.inFlight, sound.books.idle⟩,
      ⟨base.unmade, base.deaf, base.timers, base.awake, base.told, base.expiry⟩, ?_,
      fun j held => ?_, fun free => ?_⟩
    · have places : (s.setStage i .queued).places = Function.update s.places i .waiting :=
        Client.places_setStage .queued
      change TakeTurns (s.setStage i .queued).places (s.lock.enqueue i)
      rw [places]
      exact sound.turns.enqueue apart
    · have held : s.lock.holder = some j := held
      have other : j ≠ i := by
        rintro rfl
        rw [(sound.turns.holder j).mp held] at apart
        cases apart
      have op : (s.setStage i .queued).op j = s.op j :=
        (Client.op_setStage i .queued j).trans (if_neg other)
      have doing := sound.doing j held
      rw [← congrArg Operation.stage op] at doing
      refine doing.frame (Client.call_setStage .queued j) (fun k deadline g timer => ?_) rfl rfl id
        rfl rfl rfl fun h running => running
      exact (Client.call_setStage .queued k).symm.trans timer
    · have settled := sound.settled free
      refine ⟨settled.suspended, settled.active, fun on => ?_, settled.told⟩
      rcases settled.timer on with down | ⟨e, listed, pending⟩
      · exact .inl down
      · refine .inr ⟨e, listed, ?_⟩
        by_cases same : e = i
        · subst same
          exact .inr (congrArg Operation.stage
            ((Client.op_setStage e .queued e).trans (if_pos rfl)))
        · have op : (s.setStage i .queued).op e = s.op e :=
            (Client.op_setStage i .queued e).trans (if_neg same)
          change ((s.setStage i .queued).op e).stage = _ ∨ ((s.setStage i .queued).op e).stage = _
          rw [op]
          exact pending

/-! ### Every step -/

/-- What the traffic does not touch. -/
def Client.lifecycle (s : Client) :=
  (s.op, s.next, s.lock, s.generation, s.expiry, s.reported, s.listens, s.suspended, s.gate.active,
    s.shutdown)

/-- What only touches requests, handlers that end, the health and the clocks. -/
theorem Client.Sound.frame (sound : s.Sound) (books : t.Books) (same : t.lifecycle = s.lifecycle)
    (later : s.monotonic ≤ t.monotonic)
    (counted : s.gate.active = true → s.counted = [] → t.counted = [])
    (handlers : ∀ h ∈ t.handlers, h ∈ s.handlers) : t.Sound := by
  simp only [Client.lifecycle, Prod.mk.injEq] at same
  obtain ⟨op, next, lock, generation, expiry, reported, listens, suspended, active, shutdown⟩ :=
    same
  have silent (none_ : s.handlers = []) : t.handlers = [] := by
    refine List.eq_nil_iff_forall_not_mem.mpr fun h running => ?_
    have before := handlers h running
    rw [none_] at before
    cases before
  have places : t.places = s.places := by
    unfold Client.places
    rw [op]
  have base := sound.base
  refine ⟨books, ⟨?_, ?_, ?_, ?_, ?_, ?_⟩, ?_, fun i held => ?_, fun free => ?_⟩
  · rw [op, next]
    exact base.unmade
  · rw [listens, suspended]
    exact fun deaf => ⟨silent (base.deaf deaf).1, (base.deaf deaf).2⟩
  · rw [op, generation, reported]
    exact base.timers
  · rw [op]
    exact fun i deadline g timer queued => (base.awake i deadline g timer queued).trans later
  · rw [reported, generation]
    exact base.told
  · rw [expiry, next, op, generation]
    exact base.expiry
  · rw [places, lock]
    exact sound.turns
  · rw [lock] at held
    have doing := sound.doing i held
    rw [op]
    refine doing.frame (by rw [op]) (fun j deadline g timer => ?_) generation reported
      (fun none_ => expiry.trans none_) active listens suspended handlers
    rwa [op] at timer
  · rw [lock] at free
    have settled := sound.settled free
    refine ⟨?_, ?_, ?_, ?_⟩
    · rw [active, listens, suspended]
      exact settled.suspended
    · rw [active, suspended]
      exact settled.active
    · rw [active, shutdown, expiry]
      intro on
      rcases settled.timer on with down | ⟨e, listed, pending⟩
      · exact .inl down
      · refine .inr ⟨e, listed, ?_⟩
        rw [Client.Pending, op]
        exact pending
    · rw [active, reported, generation]
      intro on r told current
      obtain ⟨requests, drained⟩ := settled.told on r told current
      exact ⟨fun clean => counted on (requests clean), fun clean => silent (drained clean)⟩

theorem sound_record (sound : s.Sound) (note : Note) : (s.record note).Sound :=
  sound.frame ⟨sound.books.inFlight, sound.books.idle⟩ rfl le_rfl (fun _ none_ => none_)
    fun _ running => running

theorem sound_requestEnters (sound : s.Sound) (off : s.gate.active = false) (r : Nat) :
    Client.Sound { s with gate := s.gate.noteRequestStarted, counted := r :: s.counted } := by
  refine sound.frame ⟨?_, ?_⟩ rfl le_rfl (fun on => ?_) fun _ running => running
  · change s.gate.inFlight + 1 = ((r :: s.counted).length : Int)
    rw [sound.books.inFlight, List.length_cons]
    rfl
  · exact ⟨fun idle => (by cases idle), fun none_ => (by cases none_)⟩
  · rw [off] at on
    cases on

theorem sound_requestEnds (sound : s.Sound) {r : Nat} (counted : r ∈ s.counted) :
    Client.Sound
      { s with gate := s.gate.noteRequestFinished, counted := s.counted.erase r } := by
  have length := List.length_erase_of_mem counted
  have some_ := List.length_pos_of_mem counted
  have before := sound.books.inFlight
  have active : s.gate.noteRequestFinished.active = s.gate.active := by
    unfold CommLossSimulation.noteRequestFinished
    split <;> rfl
  refine sound.frame ⟨?_, ?_⟩ (by simp only [Client.lifecycle, active]) le_rfl (fun _ none_ => ?_)
    fun _ running => running
  · change s.gate.noteRequestFinished.inFlight = ((s.counted.erase r).length : Int)
    unfold CommLossSimulation.noteRequestFinished
    split <;> dsimp only <;> omega
  · change s.gate.noteRequestFinished.idle = true ↔ s.counted.erase r = []
    rw [← List.length_eq_zero_iff]
    unfold CommLossSimulation.noteRequestFinished
    split
    · refine ⟨fun _ => ?_, fun _ => rfl⟩
      omega
    · refine ⟨fun idle => ?_, fun none_ => ?_⟩
      · rw [sound.books.idle.mp idle] at some_
        cases some_
      · omega
  · rw [none_] at counted
    cases counted

theorem sound_notified (sound : s.Sound) (hears : s.listens = true) (open_ : s.suspended = false)
    (h : Nat) : Client.Sound { s with handlers := h :: s.handlers } := by
  have base := sound.base
  refine ⟨⟨sound.books.inFlight, sound.books.idle⟩,
    ⟨base.unmade, fun deaf => ?_, base.timers, base.awake, base.told, base.expiry⟩, sound.turns,
    fun i held => ?_, fun free => ?_⟩
  · rw [hears] at deaf
    cases deaf
  · have doing := sound.doing i held
    change Client.Doing _ i (s.op i).stage
    generalize (s.op i).stage = st at doing ⊢
    cases st with
    | suspending pending window =>
        obtain ⟨-, -, shut, -⟩ := doing
        rw [open_] at shut
        cases shut
    | arming window drained =>
        have shut := doing.2.2.1 hears
        rw [open_] at shut
        cases shut
    | recovering => exact doing
    | calling | sleeping | queued | ended => trivial
  · have settled := sound.settled free
    have off : s.gate.active ≠ true := by
      intro on
      rw [settled.suspended on hears] at open_
      cases open_
    exact ⟨settled.suspended, settled.active, settled.timer, fun on => absurd on off⟩

/-- An operator's call is made. -/
theorem sound_make (sound : s.Sound) {call : Call} (operator : call.isTimer = false) :
    (s.make ⟨call, .calling, false⟩).Sound := by
  have base := sound.base
  have other {j : Nat} (live : j < s.next) : (s.make ⟨call, .calling, false⟩).op j = s.op j :=
    Client.op_make_of_ne (Nat.ne_of_lt live)
  have timers (j : Nat) (deadline : ℚ) (g : Nat)
      (timer : ((s.make ⟨call, .calling, false⟩).op j).call = .expire deadline g) :
      j ≠ s.next ∧ (s.op j).call = .expire deadline g := by
    by_cases same : j = s.next
    · subst same
      rw [Client.op_make_self] at timer
      rw [show call = .expire deadline g from timer] at operator
      cases operator
    · rw [Client.op_make_of_ne same] at timer
      exact ⟨same, timer⟩
  have places : (s.make ⟨call, .calling, false⟩).places = s.places := by
    rw [Client.places_make]
    change Function.update s.places s.next .elsewhere = s.places
    rw [← base.elsewhere, Function.update_eq_self]
  refine ⟨⟨sound.books.inFlight, sound.books.idle⟩, ⟨fun j later => ?_, base.deaf,
    fun j deadline g timer => ?_, fun j deadline g timer queued => ?_, base.told,
    fun e listed => ?_⟩,
    ?_, fun i held => ?_, fun free => ?_⟩
  · have later : s.next + 1 ≤ j := later
    rw [Client.op_make_of_ne (by omega)]
    exact base.unmade j (by omega)
  · exact base.timers j deadline g (timers j deadline g timer).2
  · obtain ⟨apart, timer⟩ := timers j deadline g timer
    rw [Client.op_make_of_ne apart] at queued
    exact base.awake j deadline g timer queued
  · obtain ⟨made, live, deadline, timer⟩ := base.expiry e listed
    refine ⟨Nat.lt_succ_of_lt made, ?_⟩
    rw [other made]
    exact ⟨live, deadline, timer⟩
  · rw [places]
    exact sound.turns
  · have live : i < s.next := by
      by_contra unmade
      have holds := (sound.turns.holder i).mp held
      rw [Client.places, base.unmade i (Nat.le_of_not_lt unmade)] at holds
      cases holds
    rw [other live]
    refine (sound.doing i held).frame (by rw [other live]) (fun j deadline g timer => ?_) rfl rfl id
      rfl rfl rfl fun _ running => running
    exact (timers j deadline g timer).2
  · have settled := sound.settled free
    refine ⟨settled.suspended, settled.active, fun on => ?_, settled.told⟩
    rcases settled.timer on with down | ⟨e, listed, pending⟩
    · exact .inl down
    · refine .inr ⟨e, listed, ?_⟩
      rw [Client.Pending, other (base.expiry e listed).1]
      exact pending

/-- A task other than the timer in charge is cancelled. -/
theorem sound_cancelOp (sound : s.Sound) (apart : s.expiry ≠ some i) : (s.cancelOp i).Sound := by
  have base := sound.base
  refine ⟨⟨sound.books.inFlight, sound.books.idle⟩, ⟨fun j later => ?_, base.deaf,
    fun j deadline g timer => ?_, fun j deadline g timer queued => ?_, base.told,
    fun e listed => ?_⟩,
    ?_, fun j held => ?_, fun free => ?_⟩
  · rw [Client.stage_cancelOp]
    exact base.unmade j later
  · exact base.timers j deadline g ((Client.call_cancelOp j).symm.trans timer)
  · rw [Client.call_cancelOp] at timer
    rw [Client.stage_cancelOp] at queued
    exact base.awake j deadline g timer queued
  · have other : e ≠ i := fun same => apart (same ▸ listed)
    rw [Client.op_cancelOp, if_neg other]
    exact base.expiry e listed
  · rw [Client.places_cancelOp]
    exact sound.turns
  · rw [Client.stage_cancelOp]
    refine (sound.doing j held).frame (Client.call_cancelOp j) (fun k deadline g timer => ?_) rfl
      rfl
      id rfl rfl rfl fun _ running => running
    exact (Client.call_cancelOp k).symm.trans timer
  · have settled := sound.settled free
    refine ⟨settled.suspended, settled.active, fun on => ?_, settled.told⟩
    rcases settled.timer on with down | ⟨e, listed, pending⟩
    · exact .inl down
    · refine .inr ⟨e, listed, ?_⟩
      rw [Client.Pending, Client.stage_cancelOp]
      exact pending

/-- A task that does not hold the lock ends, if it is not the timer in charge. -/
theorem sound_ends (sound : s.Sound) (made : i < s.next) (apart : s.expiry ≠ some i)
    {lock : AsyncLock Nat} (holder : lock.holder = s.lock.holder)
    (idle : s.places i ≠ .holding)
    (turns : TakeTurns (Function.update s.places i .elsewhere) lock) :
    Client.Sound { s.setStage i .ended with lock := lock } := by
  have base : (s.setStage i .ended).Base :=
    sound.base.setStage made fun _ _ _ queued => by cases queued
  refine ⟨⟨sound.books.inFlight, sound.books.idle⟩,
    ⟨base.unmade, base.deaf, base.timers, base.awake, base.told, base.expiry⟩, ?_, fun j held => ?_,
    fun free => ?_⟩
  · have places : (s.setStage i .ended).places = Function.update s.places i .elsewhere :=
      Client.places_setStage .ended
    change TakeTurns (s.setStage i .ended).places lock
    rwa [places]
  · have holds : s.lock.holder = some j := holder.symm.trans held
    have other : j ≠ i := by
      rintro rfl
      exact idle ((sound.turns.holder j).mp holds)
    have op : (s.setStage i .ended).op j = s.op j :=
      (Client.op_setStage i .ended j).trans (if_neg other)
    have doing := sound.doing j holds
    rw [← congrArg Operation.stage op] at doing
    refine doing.frame (Client.call_setStage .ended j) (fun k deadline g timer => ?_) rfl rfl id
      rfl rfl rfl fun _ running => running
    exact (Client.call_setStage .ended k).symm.trans timer
  · have settled := sound.settled (holder.symm.trans free)
    refine ⟨settled.suspended, settled.active, fun on => ?_, settled.told⟩
    rcases settled.timer on with down | ⟨e, listed, pending⟩
    · exact .inl down
    · refine .inr ⟨e, listed, ?_⟩
      have other : e ≠ i := fun same => apart (same ▸ listed)
      have op : (s.setStage i .ended).op e = s.op e :=
        (Client.op_setStage i .ended e).trans (if_neg other)
      change ((s.setStage i .ended).op e).stage = _ ∨ ((s.setStage i .ended).op e).stage = _
      rw [op]
      exact pending

theorem sound_rollBack (sound : s.Sound) (holds : s.places i = .holding) :
    (s.rollBack i).Sound := by
  have base := sound.base
  have made : i < s.next := by
    by_contra unmade
    rw [Client.places, base.unmade i (Nat.le_of_not_lt unmade)] at holds
    cases holds
  refine sound_leave ⟨sound.books.inFlight, sound.books.idle⟩
    ⟨base.unmade, fun deaf => ⟨(base.deaf deaf).1, rfl⟩, base.timers, base.awake, base.told,
      base.expiry⟩
    (sound.turns.owns holds) made ⟨fun on => (by cases on), fun shut => (by cases shut),
      fun on => (by cases on), fun on => (by cases on)⟩ fun on => by cases on

/-- The end of a recovery, however it ended. -/
theorem sound_recoveryEnds (sound : s.Sound) (recovers : (s.op i).stage = .recovering)
    {gate : CommLossSimulation} (active : gate.active = s.gate.active)
    (inFlight : gate.inFlight = s.gate.inFlight) (idle : gate.idle = s.gate.idle) :
    (Client.leave { s with gate := gate } i).Sound := by
  have holds : s.places i = .holding := by rw [Client.places, recovers]; rfl
  have base := sound.base
  have owns := sound.turns.owns holds
  have made : i < s.next := by
    by_contra unmade
    rw [base.unmade i (Nat.le_of_not_lt unmade)] at recovers
    cases recovers
  have doing := sound.doing i owns.holder
  rw [recovers] at doing
  obtain ⟨off, open_⟩ := doing
  have off : gate.active = false := active.trans off
  have never {P : Prop} (on : gate.active = true) : P := by
    rw [off] at on
    cases on
  refine sound_leave ⟨?_, ?_⟩
    ⟨base.unmade, base.deaf, base.timers, base.awake, base.told, base.expiry⟩ owns made
    ⟨fun on => never on, fun shut => ?_, fun on => never on, fun on => never on⟩ fun on => never on
  · exact inFlight.trans sound.books.inFlight
  · rw [idle]
    exact sound.books.idle
  · have shut : s.suspended = true := shut
    rw [open_] at shut
    cases shut

theorem sound_unwind (sound : s.Sound) (cancelled : (s.op i).cancelled = true) :
    (s.unwind i).Sound := by
  have apart : s.expiry ≠ some i := by
    intro listed
    rw [(sound.base.expiry i listed).2.1] at cancelled
    cases cancelled
  have made (live : (s.op i).stage ≠ .ended) : i < s.next := by
    by_contra unmade
    exact live (sound.base.unmade i (Nat.le_of_not_lt unmade))
  unfold Client.unwind
  split
  · rename_i sleeps
    have place : s.places i = .elsewhere := by rw [Client.places, sleeps]; rfl
    refine sound_ends sound (made (by simp [sleeps])) apart rfl (by rw [place]; simp) ?_
    rw [← place, Function.update_eq_self]
    exact sound.turns
  · rename_i queued
    have place : s.places i = .waiting := by rw [Client.places, queued]; rfl
    exact sound_ends sound (made (by simp [queued])) apart rfl (by rw [place]; simp)
      (sound.turns.leave place)
  · rename_i suspends
    exact sound_rollBack sound (by rw [Client.places, suspends]; rfl)
  · rename_i arms
    exact sound_rollBack sound (by rw [Client.places, arms]; rfl)
  · rename_i recovers
    exact sound_recoveryEnds sound recovers rfl rfl rfl
  · exact sound
  · exact sound

theorem sound_stop (sound : s.Sound) : s.stop.Sound := by
  have base := sound.base
  have down : Client.Sound { s with expiry := none, shutdown := true } := by
    refine ⟨⟨sound.books.inFlight, sound.books.idle⟩,
      ⟨base.unmade, base.deaf, base.timers, base.awake, base.told,
        fun e listed => (by cases listed)⟩,
      sound.turns, fun i held => ?_, fun free => ?_⟩
    · exact (sound.doing i held).frame rfl (fun _ _ _ timer => timer) rfl rfl (fun _ => rfl) rfl
        rfl rfl fun _ running => running
    · have settled := sound.settled free
      exact ⟨settled.suspended, settled.active, fun _ => .inl rfl, settled.told⟩
  unfold Client.stop
  split
  · rename_i none_
    rwa [← none_] at down
  · exact sound_cancelOp (i := _) down fun listed => by cases listed

/-- Every step keeps the invariant. -/
theorem sound_step {l : Step} (sound : s.Sound) (stepped : client.step l s = some t) : t.Sound := by
  cases l with
  | requestEnters r recorded =>
      simp only [client] at stepped
      split at stepped
      · cases stepped
        split
        · exact sound_record sound _
        · exact sound
      · rename_i off
        split at stepped
        · cases stepped
        · cases stepped
          exact sound_requestEnters sound (by simpa using off) r
  | requestAnswered r now =>
      simp only [client] at stepped
      split at stepped
      · cases stepped
        exact sound_record sound _
      · cases stepped
  | requestEnds r outcome =>
      simp only [client] at stepped
      split at stepped
      · rename_i counted
        have done := sound_requestEnds sound counted
        cases stepped
        cases outcome with
        | answered now => exact sound_record done _
        | failed => exact sound_record done _
        | unrecorded => exact done
      · cases stepped
  | resetSession =>
      cases stepped
      exact sound_record sound _
  | notified h =>
      simp only [client] at stepped
      split at stepped
      · cases stepped
      · rename_i hears
        split at stepped
        · cases stepped
          exact sound
        · rename_i open_
          cases stepped
          simp only [Bool.or_eq_true, not_or, Bool.not_eq_true', Bool.not_eq_false] at hears
          exact sound_notified sound hears.1 (by simpa using open_) h
  | handled h =>
      simp only [client] at stepped
      split at stepped
      · cases stepped
        exact sound.frame ⟨sound.books.inFlight, sound.books.idle⟩ rfl le_rfl
          (fun _ none_ => none_) fun _ running => List.mem_of_mem_erase running
      · cases stepped
  | simulate duration drainTimeout =>
      simp only [client] at stepped
      split at stepped
      · cases stepped
        exact sound
      · cases stepped
        refine sound_enter (sound_make sound rfl) (Nat.lt_succ_self _) ?_ fun deadline g timer => ?_
        · rw [Client.places, Client.op_make_self]
          rfl
        · rw [Client.op_make_self] at timer
          cases timer
  | clear =>
      cases stepped
      refine sound_enter (sound_make sound rfl) (Nat.lt_succ_self _) ?_ fun deadline g timer => ?_
      · rw [Client.places, Client.op_make_self]
        rfl
      · rw [Client.op_make_self] at timer
        cases timer
  | wake i =>
      simp only [client] at stepped
      split at stepped
      · rename_i deadline generation call
        split at stepped
        · rename_i woken
          cases stepped
          refine sound_enter sound ?_ (by rw [Client.places, woken.1]; rfl) fun d g timer => ?_
          · by_contra unmade
            have ended := sound.base.unmade i (Nat.le_of_not_lt unmade)
            rw [woken.1] at ended
            cases ended
          · rw [(Call.expire.inj (timer.symm.trans call)).1]
            exact woken.2.2
        · cases stepped
      · cases stepped
  | granted =>
      obtain ⟨i, next, rfl⟩ := Option.map_eq_some_iff.mp stepped
      obtain ⟨free, waits, -⟩ := AsyncLock.next_eq_some next
      have queued := (sound.turns.queue i).mp waits
      refine sound_begin (sound.taken free ?_ (sound.turns.grant free))
      by_contra unmade
      rw [Client.places, sound.base.unmade i (Nat.le_of_not_lt unmade)] at queued
      cases queued
  | suspended i =>
      simp only [client] at stepped
      split at stepped
      · rename_i pending window stage
        split at stepped
        · cases stepped
        · cases stepped
          have holds : s.places i = .holding := by rw [Client.places, stage]; rfl
          have owns := sound.turns.owns holds
          have doing := sound.doing i owns.holder
          rw [stage] at doing
          obtain ⟨opening, -, shut, drains⟩ := doing
          refine sound_armGate sound.books sound.base owns ?_ opening (fun _ => shut) fun done => ?_
          · by_contra unmade
            rw [sound.base.unmade i (Nat.le_of_not_lt unmade)] at stage
            cases stage
          · refine List.eq_nil_iff_forall_not_mem.mpr fun h running => ?_
            have left := List.all_eq_true.mp done h (drains h running)
            simp [running] at left
      · cases stepped
  | drained i inTime =>
      simp only [client] at stepped
      split at stepped
      · rename_i window notificationsDrained stage
        split at stepped
        · cases stepped
        · rename_i may
          cases stepped
          have holds : s.places i = .holding := by rw [Client.places, stage]; rfl
          have owns := sound.turns.owns holds
          have doing := sound.doing i owns.holder
          rw [stage] at doing
          obtain ⟨opening, on, shut, silent⟩ := doing
          refine sound_opened sound.books sound.base owns ?_ opening on shut silent fun done => ?_
          · by_contra unmade
            rw [sound.base.unmade i (Nat.le_of_not_lt unmade)] at stage
            cases stage
          · refine sound.books.idle.mp ?_
            by_contra busy
            exact may (.inr ⟨done, by simpa using busy⟩)
      · cases stepped
  | recovered i failure =>
      simp only [client] at stepped
      split at stepped
      · rename_i recovers
        cases stepped
        unfold Client.recovered
        dsimp only
        split
        · exact sound_recoveryEnds sound recovers rfl rfl rfl
        · split
          · exact sound_recoveryEnds sound recovers rfl rfl rfl
          · exact sound_recoveryEnds sound recovers rfl rfl rfl
      · cases stepped
  | cancelCall i =>
      simp only [client] at stepped
      split at stepped
      · rename_i operator
        cases stepped
        refine sound_cancelOp sound (sound.base.no_timer ?_)
        simpa using operator.2.1
      · cases stepped
  | unwind i =>
      simp only [client] at stepped
      split at stepped
      · rename_i cancelled
        cases stepped
        exact sound_unwind sound cancelled.1
      · cases stepped
  | commsLoss on =>
      cases stepped
      exact sound.frame ⟨sound.books.inFlight, sound.books.idle⟩ rfl le_rfl
        (fun _ none_ => none_) fun _ running => running
  | clock elapsed wall =>
      simp only [client] at stepped
      split at stepped
      · rename_i forward
        cases stepped
        exact sound.frame ⟨sound.books.inFlight, sound.books.idle⟩ rfl
          (le_add_of_nonneg_right forward) (fun _ none_ => none_) fun _ running => running
      · cases stepped
  | shutdown =>
      cases stepped
      exact sound_stop sound

end Steps

/-! ### Runs -/

/-- A client that has just been made. -/
def Client.fresh (listens : Bool) : Client := { listens := listens }

theorem sound_fresh (listens : Bool) : (Client.fresh listens).Sound where
  books := ⟨rfl, fun _ => rfl, fun _ => rfl⟩
  base := by
    refine ⟨fun _ _ => rfl, fun _ => ⟨rfl, rfl⟩, fun i deadline g timer => ?_,
      fun i deadline g timer => ?_, fun r told => ?_, fun e listed => ?_⟩
    · cases timer
    · cases timer
    · cases told
    · cases listed
  turns := by
    refine ⟨fun i => ?_, List.nodup_nil, fun i => ?_⟩
    · exact ⟨fun waits => (by cases waits), fun waits => (by cases waits)⟩
    · exact ⟨fun held => (by cases held), fun holds => (by cases holds)⟩
  doing i held := by cases held
  settled _ := by
    refine ⟨fun on => ?_, fun shut => ?_, fun on => ?_, fun on => ?_⟩
    · cases on
    · cases shut
    · cases on
    · cases on

/-- The states of a client. -/
def Reached (listens : Bool) (s : Client) : Prop := client.Run Machine.Free (Client.fresh listens) s

theorem Reached.sound {listens : Bool} {s : Client} (reached : Reached listens s) : s.Sound :=
  Machine.Run.keeps (fun _ _ _ stepped _ sound => sound_step sound stepped) reached
    (sound_fresh listens)

/-! ### What the lifecycle leaves alone -/

/-- What the tasks under the lock do not touch. -/
def Client.rest (s : Client) : List Nat × List Nat × Health × List Nat × Bool × ℚ :=
  (s.counted, s.handlers, s.health, s.lock.waiters, s.shutdown, s.monotonic)

section Rest

variable (s : Client) (i : Nat)

theorem rest_armGate (drainTimeout : ℚ) (window : Window) (notificationsDrained : Bool) :
    (s.armGate i drainTimeout window notificationsDrained).rest = s.rest := by
  unfold Client.armGate
  dsimp only
  split <;> rfl

theorem rest_cancelExpiry : (s.cancelExpiry i).rest = s.rest := by
  obtain ⟨op, expiry, dropped, -⟩ := cancelExpiry_spec s i
  rw [dropped]
  rfl

theorem rest_beginSimulation (duration drainTimeout : ℚ) :
    (s.beginSimulation i duration drainTimeout).rest = s.rest := by
  have dropped := rest_cancelExpiry { s with generation := s.generation + 1 } i
  unfold Client.beginSimulation
  dsimp only
  split
  · split
    · exact (rest_armGate _ i _ _ _).trans dropped
    · exact dropped
  · exact (rest_armGate _ i _ _ _).trans dropped

theorem rest_clearLocked : (s.clearLocked i).rest = s.rest := rest_cancelExpiry s i

theorem rest_begin : (s.begin_ i).rest = s.rest := by
  unfold Client.begin_
  split
  · exact rest_beginSimulation s i _ _
  · exact rest_clearLocked s i
  · split
    · rfl
    · split
      · rfl
      · exact rest_clearLocked s i

variable {s i}

/-- The traffic and the health are as they were after a task has asked for the lock. -/
theorem rest_enter : (s.enter i).counted = s.counted ∧ (s.enter i).handlers = s.handlers ∧
    (s.enter i).health = s.health := by
  unfold Client.enter
  split
  · have same := rest_begin { s with lock := s.lock.take i } i
    exact ⟨congrArg Prod.fst same, congrArg (fun x => x.2.1) same, congrArg (fun x => x.2.2.1) same⟩
  · exact ⟨rfl, rfl, rfl⟩

theorem rest_unwind : (s.unwind i).counted = s.counted ∧ (s.unwind i).handlers = s.handlers ∧
    (s.unwind i).health = s.health := by
  unfold Client.unwind
  split <;> exact ⟨rfl, rfl, rfl⟩

end Rest

/-! ### Isolation -/

/-- Behind the closed gate nothing is under way. -/
structure Sealed (s : Client) : Prop where
  active : s.gate.active = true
  requests : s.counted = []
  handlers : s.handlers = []

section Isolation

variable {s t : Client}

/-- Whose turn it is in a state whose gate is closed. -/
theorem Client.Sound.at_work (sound : s.Sound) (on : s.gate.active = true) :
    s.Settled ∨ ∃ i window, s.lock.holder = some i ∧ s.Opening i window := by
  cases held : s.lock.holder with
  | none => exact .inl (sound.settled held)
  | some i =>
      right
      have doing := sound.doing i held
      have holds := (sound.turns.holder i).mp held
      cases stage : (s.op i).stage with
      | suspending pending window =>
          rw [stage] at doing
          exact ⟨i, window, rfl, doing.1⟩
      | arming window drained =>
          rw [stage] at doing
          exact ⟨i, window, rfl, doing.1⟩
      | recovering =>
          rw [stage] at doing
          rw [doing.1] at on
          cases on
      | calling | sleeping | queued | ended =>
          rw [Client.places, stage] at holds
          cases holds

/-- The listener is suspended as long as the gate is closed. -/
theorem Client.Sound.suspended (sound : s.Sound) (on : s.gate.active = true)
    (hears : s.listens = true) : s.suspended = true := by
  cases held : s.lock.holder with
  | none => exact (sound.settled held).suspended on hears
  | some i =>
      have doing := sound.doing i held
      have holds := (sound.turns.holder i).mp held
      cases stage : (s.op i).stage with
      | suspending pending window =>
          rw [stage] at doing
          exact doing.2.2.1
      | arming window drained =>
          rw [stage] at doing
          exact doing.2.2.1 hears
      | recovering =>
          rw [stage] at doing
          rw [doing.1] at on
          cases on
      | calling | sleeping | queued | ended =>
          rw [Client.places, stage] at holds
          cases holds

theorem sealed_of_report (sound : s.Sound) (on : s.gate.active = true) {r : Report}
    (told : s.reported = some r) (current : r.window.generation = s.generation)
    (requests : r.requestsDrained = true) (notifications : r.notificationsDrained = true) :
    Sealed s := by
  rcases sound.at_work on with settled | ⟨i, window, -, opening⟩
  · obtain ⟨drained, silent⟩ := settled.told on r told current
    exact ⟨on, drained requests, silent notifications⟩
  · exact absurd current (Nat.ne_of_lt (opening.told r told))

/-- What a step behind the closed gate leaves of the health: no contact is recorded, and only
failures of the gate's own. -/
structure Unreached (h h' : Health) : Prop where
  contact : h'.lastContactEpoch = h.lastContactEpoch ∨ h'.lastContactEpoch = none
  attribution : h.silenceSimulated ≠ some false → h'.silenceSimulated ≠ some false

theorem Unreached.refl (h : Health) : Unreached h h := ⟨.inl rfl, id⟩

theorem Unreached.trans {h h' h'' : Health} (first : Unreached h h') (second : Unreached h' h'') :
    Unreached h h'' := by
  refine ⟨?_, second.attribution ∘ first.attribution⟩
  rcases second.contact with same | none_
  · rw [same]
    exact first.contact
  · exact .inr none_

theorem unreached_reset (h : Health) : Unreached h (h.record .reset) := ⟨.inr rfl, id⟩

theorem unreached_simulated (h : Health) : Unreached h (h.record (.failed .simulated)) := by
  refine ⟨.inl rfl, fun before => ?_⟩
  cases silence : h.silenceSimulated with
  | none => simp [Health.record, silence, Failure.isSimulated]
  | some simulated =>
      rw [silence] at before
      cases simulated with
      | false => exact absurd rfl before
      | true => simp [Health.record, silence, Failure.isSimulated]

/-- As long as the gate stays closed, nothing gets under way and the server is not reached. -/
theorem sealed_step {l : Step} (sound : s.Sound) (before : Sealed s)
    (stepped : client.step l s = some t) (on : t.gate.active = true) :
    Sealed t ∧ Unreached s.health t.health := by
  have none_ {r : Nat} (counted : r ∈ s.counted) : False := by
    rw [before.requests] at counted
    cases counted
  have alike (counted : t.counted = s.counted) (handlers : t.handlers = s.handlers)
      (health : t.health = s.health) : Sealed t ∧ Unreached s.health t.health := by
    refine ⟨⟨on, counted.trans before.requests, handlers.trans before.handlers⟩, ?_⟩
    rw [health]
    exact .refl _
  have rested {u : Client} (same : t.rest = u.rest) (counted : u.counted = s.counted)
      (handlers : u.handlers = s.handlers) (health : u.health = s.health) :
      Sealed t ∧ Unreached s.health t.health :=
    alike ((congrArg Prod.fst same).trans counted) ((congrArg (fun x => x.2.1) same).trans handlers)
      ((congrArg (fun x => x.2.2.1) same).trans health)
  cases l with
  | requestEnters r recorded =>
      simp only [client, before.active, if_true] at stepped
      cases stepped
      cases recorded with
      | false => exact ⟨before, .refl _⟩
      | true => exact ⟨⟨on, before.requests, before.handlers⟩, unreached_simulated _⟩
  | requestAnswered r now | requestEnds r outcome =>
      simp only [client] at stepped
      split at stepped
      · rename_i counted
        exact (none_ counted).elim
      · cases stepped
  | resetSession =>
      cases stepped
      exact ⟨⟨on, before.requests, before.handlers⟩, unreached_reset _⟩
  | notified h =>
      simp only [client] at stepped
      split at stepped
      · cases stepped
      · rename_i hears
        simp only [Bool.or_eq_true, not_or, Bool.not_eq_true', Bool.not_eq_false] at hears
        rw [if_pos (sound.suspended before.active hears.1)] at stepped
        cases stepped
        exact ⟨before, .refl _⟩
  | handled h =>
      simp only [client] at stepped
      split at stepped
      · rename_i running
        rw [before.handlers] at running
        cases running
      · cases stepped
  | simulate duration drainTimeout =>
      simp only [client] at stepped
      split at stepped
      · cases stepped
        exact ⟨before, .refl _⟩
      · cases stepped
        obtain ⟨counted, handlers, health⟩ := rest_enter (i := s.next)
          (s := s.make ⟨.simulate duration drainTimeout, .calling, false⟩)
        exact alike counted handlers health
  | clear =>
      cases stepped
      obtain ⟨counted, handlers, health⟩ := rest_enter (i := s.next)
        (s := s.make ⟨.clear, .calling, false⟩)
      exact alike counted handlers health
  | wake i =>
      simp only [client] at stepped
      split at stepped
      · split at stepped
        · cases stepped
          obtain ⟨counted, handlers, health⟩ := rest_enter (i := i) (s := s)
          exact alike counted handlers health
        · cases stepped
      · cases stepped
  | granted =>
      obtain ⟨i, -, rfl⟩ := Option.map_eq_some_iff.mp stepped
      exact rested (rest_begin _ i) rfl rfl rfl
  | suspended i =>
      simp only [client] at stepped
      split at stepped
      · split at stepped
        · cases stepped
        · cases stepped
          exact rested (rest_armGate s i _ _ _) rfl rfl rfl
      · cases stepped
  | drained i inTime =>
      simp only [client] at stepped
      split at stepped
      · split at stepped
        · cases stepped
        · cases stepped
          exact alike rfl rfl rfl
      · cases stepped
  | recovered i failure =>
      simp only [client] at stepped
      split at stepped
      · cases stepped
        exact alike rfl rfl rfl
      · cases stepped
  | cancelCall i =>
      simp only [client] at stepped
      split at stepped
      · cases stepped
        exact alike rfl rfl rfl
      · cases stepped
  | unwind i =>
      simp only [client] at stepped
      split at stepped
      · cases stepped
        obtain ⟨counted, handlers, health⟩ := rest_unwind (i := i) (s := s)
        exact alike counted handlers health
      · cases stepped
  | commsLoss on =>
      cases stepped
      exact alike rfl rfl rfl
  | clock elapsed wall =>
      simp only [client] at stepped
      split at stepped
      · cases stepped
        exact alike rfl rfl rfl
      · cases stepped
  | shutdown =>
      cases stepped
      refine alike ?_ ?_ ?_
      all_goals
        unfold Client.stop
        split <;> rfl

/-- The gate stays closed. -/
def StaysShut (_ : Client) (_ : Step) (t : Client) : Prop := t.gate.active = true

end Isolation

/-- Once a simulation has been reported with both drains done, and as long as the gate stays closed:
no request is under way and none starts, no notification handler runs, no contact with the server is
recorded, and no failure is recorded but the gate's own. -/
theorem isolated {listens : Bool} {s t : Client} (reached : Reached listens s) {r : Report}
    (told : s.reported = some r) (current : r.window.generation = s.generation)
    (requests : r.requestsDrained = true) (notifications : r.notificationsDrained = true)
    (on : s.gate.active = true) (run : client.Run StaysShut s t) :
    t.counted = [] ∧ t.handlers = [] ∧ Unreached s.health t.health := by
  have kept : t.Sound ∧ Sealed t ∧ Unreached s.health t.health := by
    refine Machine.Run.keeps
      (P := fun u : Client => u.Sound ∧ Sealed u ∧ Unreached s.health u.health)
      (fun l u v stepped stays before => ?_) run
      ⟨reached.sound, sealed_of_report reached.sound on told current requests notifications,
        .refl _⟩
    obtain ⟨sound, sealed_, since⟩ := before
    obtain ⟨after, step⟩ := sealed_step sound sealed_ stepped stays
    exact ⟨sound_step sound stepped, after, since.trans step⟩
  exact ⟨kept.2.1.requests, kept.2.1.handlers, kept.2.2⟩

/-- A request is in flight and a handler runs when the simulation begins; both are drained. -/
def draining : List Step :=
  [.requestEnters 1 false, .notified 1, .simulate 10 5, .handled 1, .suspended 0,
    .requestEnds 1 .failed, .drained 0 true]

/-- A request and a notification that come after that find the gate closed. -/
theorem isolated_idle : ∃ s t, client.exec (Client.fresh true) draining = some s ∧
    (s.op 0).stage = .ended ∧ s.health.consecutiveFailures = 1 ∧
    client.exec s [.requestEnters 2 true, .clock 3 3, .notified 2] = some t ∧
    t.counted = [] ∧ t.handlers = [] ∧ Unreached s.health t.health := by
  refine ⟨_, _, rfl, rfl, rfl, rfl, ?_⟩
  have reached : Reached true _ := Machine.run_of_exec (M := client) draining rfl
  exact isolated reached rfl rfl rfl rfl rfl
    (Machine.Run.step (M := client) (.notified 2) (.step (M := client) (.clock 3 3)
      (.step (M := client) (.requestEnters 2 true) (.refl _) rfl rfl) rfl rfl) rfl rfl)

/-! ### The end of a window -/

/-- Steps the client takes by itself: its tasks go on, time out or unwind, its timers fire, and time
passes. -/
def Step.isOwn : Step → Bool
  | wake _ | granted | suspended _ | drained _ _ | recovered _ _ | unwind _ | clock _ _ => true
  | _ => false

/-- Runs of the client's own steps. -/
def OwnRun : Client → Client → Prop := client.Run fun _ l _ => l.isOwn = true

section Reopening

variable {s t : Client} {i : Nat}

theorem OwnRun.refl (s : Client) : OwnRun s s := Machine.Run.refl (M := client) s

theorem OwnRun.trans {u : Client} (first : OwnRun s t) (second : OwnRun t u) : OwnRun s u :=
  Machine.Run.trans first second

theorem OwnRun.single {l : Step} (own : l.isOwn = true) (stepped : client.step l s = some t) :
    OwnRun s t :=
  Machine.Run.step l (OwnRun.refl s) stepped own

theorem sound_of_run (sound : s.Sound) (run : OwnRun s t) : t.Sound :=
  Machine.Run.keeps (fun _ _ _ stepped _ before => sound_step before stepped) run sound

/-- An operation under way that may go on has a step that ends its turn or takes it to the next
drain. -/
theorem armed_finishes {window : Window} {notificationsDrained : Bool}
    (arms : (s.op i).stage = .arming window notificationsDrained)
    (live : (s.op i).cancelled = false) :
    ∃ t, OwnRun s t ∧ t.lock = s.lock.release ∧ t.shutdown = s.shutdown := by
  refine ⟨s.opened i window notificationsDrained false, .single (l := .drained i false) rfl ?_,
    rfl, rfl⟩
  simp [client, arms, live]

theorem armGate_finishes (drainTimeout : ℚ) (window : Window) (notificationsDrained : Bool)
    (live : (s.op i).cancelled = false) :
    ∃ t, OwnRun (s.armGate i drainTimeout window notificationsDrained) t ∧
      t.lock = s.lock.release ∧ t.shutdown = s.shutdown := by
  unfold Client.armGate
  dsimp only
  split
  · exact ⟨_, .refl _, rfl, rfl⟩
  · let armed : Client :=
      { s with gate := s.gate.arm s.wall window.expiresAt }.setStage i
        (.arming window notificationsDrained)
    have arms : (armed.op i).stage = .arming window notificationsDrained := by
      rw [Client.op_setStage, if_pos rfl]
    exact armed_finishes arms ((Client.cancelled_setStage _ i).trans live)

/-- The holder of the lock gives it back by itself. -/
theorem holder_finishes (sound : s.Sound) (held : s.lock.holder = some i) :
    ∃ t, OwnRun s t ∧ t.lock = s.lock.release ∧ t.shutdown = s.shutdown := by
  have holds := (sound.turns.holder i).mp held
  cases cancelled : (s.op i).cancelled with
  | true =>
      refine ⟨s.unwind i, .single (l := .unwind i) rfl ?_, ?_⟩
      · have live : (s.op i).stage ≠ .ended := by
          intro ended
          rw [Client.places, ended] at holds
          cases holds
        simp [client, cancelled, live]
      · unfold Client.unwind
        cases stage : (s.op i).stage with
        | suspending pending window | arming window drained | recovering => exact ⟨rfl, rfl⟩
        | calling | sleeping | queued | ended =>
            rw [Client.places, stage] at holds
            cases holds
  | false =>
      cases stage : (s.op i).stage with
      | suspending pending window =>
          obtain ⟨t, run, lock, shutdown⟩ := armGate_finishes (s.op i).call.drainTimeout window
            (pending.all fun h => h ∉ s.handlers) cancelled
          refine ⟨t, .trans (.single (l := .suspended i) rfl ?_) run, lock, shutdown⟩
          simp [client, stage, cancelled]
      | arming window drained => exact armed_finishes stage cancelled
      | recovering =>
          refine ⟨s.recovered i none, .single (l := .recovered i none) rfl ?_, rfl, rfl⟩
          simp [client, stage]
      | calling | sleeping | queued | ended =>
          rw [Client.places, stage] at holds
          cases holds

/-- A waiter of the free lock leaves the queue by itself: it goes on, or unwinds. -/
theorem waiter_leaves (sound : s.Sound) (free : s.lock.holder = none)
    (waiting : s.lock.waiters ≠ []) :
    ∃ t, OwnRun s t ∧ t.lock.waiters.length < s.lock.waiters.length ∧ t.shutdown = s.shutdown := by
  have shorter {w : Nat} (waits : w ∈ s.lock.waiters) :
      (s.lock.waiters.erase w).length < s.lock.waiters.length := by
    rw [List.length_erase_of_mem waits]
    exact Nat.pred_lt (Nat.ne_of_gt (List.length_pos_of_mem waits))
  rcases AsyncLock.isOpen_or_next s.isCancelled free with opens | ⟨w, turn⟩
  · obtain ⟨w, waits⟩ := List.exists_mem_of_ne_nil _ waiting
    have cancelled : (s.op w).cancelled = true := by
      simp only [AsyncLock.isOpen, Bool.and_eq_true, List.all_eq_true] at opens
      exact opens.2 w waits
    have queued := Client.queued_of_place ((sound.turns.queue w).mp waits)
    refine ⟨s.unwind w, .single (l := .unwind w) rfl ?_, ?_⟩
    · simp [client, cancelled, queued]
    · unfold Client.unwind
      rw [queued]
      exact ⟨shorter waits, rfl⟩
  · obtain ⟨-, waits, -⟩ := AsyncLock.next_eq_some turn
    have kept := rest_begin { s with lock := s.lock.grant w } w
    refine ⟨_, .single (l := .granted) rfl (Option.map_eq_some_iff.mpr ⟨w, turn, rfl⟩), ?_, ?_⟩
    · have waiters := congrArg (fun x => x.2.2.2.1) kept
      exact lt_of_eq_of_lt (congrArg List.length waiters) (shorter waits)
    · exact congrArg (fun x => x.2.2.2.2.1) kept

/-- Everybody who is at the lock has their turn. -/
theorem lock_empties (sound : s.Sound) (up : s.shutdown = false) :
    ∃ t, OwnRun s t ∧ t.lock.holder = none ∧ t.lock.waiters = [] ∧ t.shutdown = false := by
  induction length : s.lock.waiters.length using Nat.strong_induction_on generalizing s with
  | _ n ih =>
    obtain ⟨u, first, free, waiters, shutdown⟩ : ∃ u, OwnRun s u ∧ u.lock.holder = none ∧
        u.lock.waiters = s.lock.waiters ∧ u.shutdown = false := by
      cases held : s.lock.holder with
      | none => exact ⟨s, .refl s, held, rfl, up⟩
      | some i =>
          obtain ⟨u, run, lock, shutdown⟩ := holder_finishes sound held
          exact ⟨u, run, by rw [lock]; rfl, by rw [lock]; rfl, shutdown.trans up⟩
    by_cases none_ : u.lock.waiters = []
    · exact ⟨u, first, free, none_, shutdown⟩
    · have after := sound_of_run sound first
      obtain ⟨v, second, fewer, same⟩ := waiter_leaves after free none_
      rw [waiters, length] at fewer
      obtain ⟨t, third, rest⟩ := ih _ fewer (sound_of_run after second) (same.trans shutdown) rfl
      exact ⟨t, (first.trans second).trans third, rest⟩

/-- The timer of a window ends it. -/
theorem window_expires (sound : s.Sound) (up : s.shutdown = false) (free : s.lock.holder = none)
    (none_ : s.lock.waiters = []) (on : s.gate.active = true) :
    ∃ t, OwnRun s t ∧ t.gate.active = false ∧ t.suspended = false := by
  rcases (sound.settled free).timer on with down | ⟨e, listed, pending⟩
  · rw [up] at down
    cases down
  · obtain ⟨-, live, deadline, call⟩ := sound.base.expiry e listed
    have sleeps : (s.op e).stage = .sleeping := by
      refine pending.resolve_right fun queued => ?_
      have waits := (sound.turns.queue e).mpr (by rw [Client.places, queued]; rfl)
      rw [none_] at waits
      cases waits
    let later : Client := { s with monotonic := s.monotonic + max 0 (deadline - s.monotonic) }
    have passes : client.step (.clock (max 0 (deadline - s.monotonic)) s.wall) s = some later := by
      simp [client, later]
    have due : deadline ≤ later.monotonic := by
      change deadline ≤ s.monotonic + max 0 (deadline - s.monotonic)
      linarith [le_max_right 0 (deadline - s.monotonic)]
    have opens : later.lock.isOpen later.isCancelled = true := by
      simp [AsyncLock.isOpen, AsyncLock.locked, later, free, none_]
    have wakes : client.step (.wake e) later = some (later.enter e) := by
      simp [client, later, call, sleeps, live, due]
    have woken : later.enter e = ({ later with lock := later.lock.take e }).clearLocked e := by
      rw [Client.enter, if_pos opens, Client.begin_]
      simp [later, call, on]
    refine ⟨_, .trans (.single (l := .clock _ _) rfl passes) (.single (l := .wake e) rfl wakes), ?_⟩
    rw [woken]
    exact ⟨rfl, rfl⟩

end Reopening

/-- Whatever happened before, and wherever its operations are: as long as it is not shut down the
client gets out of a simulation by itself. No request or handler has to end for it, and no operator
has to clear it. -/
theorem always_reopens {listens : Bool} {s : Client} (reached : Reached listens s)
    (up : s.shutdown = false) :
    ∃ t, OwnRun s t ∧ t.gate.active = false ∧ t.suspended = false := by
  obtain ⟨u, first, free, none_, shutdown⟩ := lock_empties reached.sound up
  have sound := sound_of_run reached.sound first
  cases on : u.gate.active with
  | true =>
      obtain ⟨t, second, rest⟩ := window_expires sound shutdown free none_ on
      exact ⟨t, first.trans second, rest⟩
  | false =>
      refine ⟨u, first, on, ?_⟩
      by_contra shut
      have closed := (sound.settled free).active (by simpa using shut)
      rw [on] at closed
      cases closed

/-- A request is in flight and a handler runs when the simulation begins. -/
theorem always_reopens_draining : ∃ s t,
    client.exec (Client.fresh true) [.requestEnters 1 false, .notified 1, .simulate 10 5] =
      some s ∧ (s.op 0).stage = .suspending [1] ⟨1, 0 + 10, 0 + 10⟩ ∧
    OwnRun s t ∧ t.gate.active = false ∧ t.suspended = false := by
  have reached : Reached true _ :=
    Machine.run_of_exec (M := client) [.requestEnters 1 false, .notified 1, .simulate 10 5] rfl
  obtain ⟨t, run, rest⟩ := always_reopens reached rfl
  exact ⟨_, t, rfl, rfl, run, rest⟩

/-- Task `i` is the timer of the window the operator was told of, the last one that was opened, and
its deadline has come. -/
def Client.Due (s : Client) (i : Nat) : Prop :=
  ∃ r, s.reported = some r ∧ r.window.generation = s.generation ∧ r.window.deadline ≤ s.monotonic ∧
    (s.op i).call = .expire r.window.deadline s.generation

/-- The steps that may open the closed gate: a clear call, the timer of the window itself, and a
simulation that is cancelled before it has been reported. -/
def Client.Opens (s : Client) : Step → Prop
  | .clear => True
  | .wake i => s.Due i
  | .granted => ∃ i, s.lock.next s.isCancelled = some i ∧ ((s.op i).call = .clear ∨ s.Due i)
  | .unwind i => ∃ window, (s.op i).cancelled = true ∧ s.lock.holder = some i ∧ s.Opening i window
  | _ => False

section Opening

variable {s t : Client} {i : Nat}

theorem active_armGate (drainTimeout : ℚ) (window : Window) (notificationsDrained : Bool) :
    (s.armGate i drainTimeout window notificationsDrained).gate.active = true := by
  unfold Client.armGate
  dsimp only
  split <;> rfl

theorem gate_cancelExpiry : (s.cancelExpiry i).gate = s.gate := by
  obtain ⟨op, expiry, dropped, -⟩ := cancelExpiry_spec s i
  rw [dropped]

/-- A simulation that begins does not open the gate. -/
theorem active_beginSimulation (duration drainTimeout : ℚ) (on : s.gate.active = true) :
    (s.beginSimulation i duration drainTimeout).gate.active = true := by
  have kept : ({ s with generation := s.generation + 1 }.cancelExpiry i).gate = s.gate :=
    gate_cancelExpiry
  unfold Client.beginSimulation
  dsimp only
  split
  · split
    · exact active_armGate _ _ _
    · exact (congrArg CommLossSimulation.active kept).trans on
  · exact active_armGate _ _ _

/-- The calls that open the gate at their turn. -/
theorem begin_opens (on : s.gate.active = true) (off : (s.begin_ i).gate.active = false) :
    (s.op i).call = .clear ∨ ∃ deadline, (s.op i).call = .expire deadline s.generation := by
  unfold Client.begin_ at off
  split at off
  · rw [active_beginSimulation _ _ on] at off
    cases off
  · rename_i call
    exact .inl call
  · rename_i deadline generation call
    split at off
    · have off : s.gate.active = false := off
      rw [on] at off
      cases off
    · rename_i current
      rw [not_not.mp current] at call
      exact .inr ⟨deadline, call⟩

theorem enter_opens (on : s.gate.active = true) (off : (s.enter i).gate.active = false) :
    (s.op i).call = .clear ∨ ∃ deadline, (s.op i).call = .expire deadline s.generation := by
  unfold Client.enter at off
  split at off
  · exact begin_opens (s := { s with lock := s.lock.take i }) on off
  · have off : s.gate.active = false := off
    rw [on] at off
    cases off

/-- A timer of the current generation is that of the window the operator was told of. -/
theorem Client.Base.due (base : s.Base) {deadline : ℚ}
    (call : (s.op i).call = .expire deadline s.generation) (come : deadline ≤ s.monotonic) :
    s.Due i := by
  obtain ⟨r, told, current, rfl⟩ := (base.timers i deadline s.generation call).2 rfl
  exact ⟨r, told, current, come, call⟩

theorem unwind_opens (sound : s.Sound) (on : s.gate.active = true)
    (off : (s.unwind i).gate.active = false) :
    ∃ window, s.lock.holder = some i ∧ s.Opening i window := by
  have opening (window : Window) (holds : s.places i = .holding)
      (doing : s.Doing i (s.op i).stage → s.Opening i window) :
      ∃ window, s.lock.holder = some i ∧ s.Opening i window :=
    have held := (sound.turns.holder i).mpr holds
    ⟨window, held, doing (sound.doing i held)⟩
  have same (off : s.gate.active = false) :
      ∃ window, s.lock.holder = some i ∧ s.Opening i window := by
    rw [on] at off
    cases off
  unfold Client.unwind at off
  cases stage : (s.op i).stage with
  | suspending pending window =>
      refine opening window (by rw [Client.places, stage]; rfl) fun doing => ?_
      rw [stage] at doing
      exact doing.1
  | arming window drained =>
      refine opening window (by rw [Client.places, stage]; rfl) fun doing => ?_
      rw [stage] at doing
      exact doing.1
  | calling | sleeping | queued | recovering | ended =>
      rw [stage] at off
      exact same off

end Opening

/-- A closed gate is opened by nothing else: no request, no notification, no timer of another window
and no timer before its time opens it. -/
theorem opens_by {listens : Bool} {s t : Client} {l : Step} (reached : Reached listens s)
    (on : s.gate.active = true) (stepped : client.step l s = some t)
    (off : t.gate.active = false) : s.Opens l := by
  have sound := reached.sound
  have kept {u : Client} (same : u.gate.active = s.gate.active) (off : u.gate.active = false) :
      False := by
    rw [same, on] at off
    cases off
  cases l with
  | clear => trivial
  | requestEnters r recorded =>
      simp only [client, on, if_true] at stepped
      cases stepped
      cases recorded with
      | false => exact (kept rfl off).elim
      | true => exact (kept rfl off).elim
  | requestAnswered r now =>
      simp only [client] at stepped
      split at stepped
      · cases stepped
        exact (kept rfl off).elim
      · cases stepped
  | requestEnds r outcome =>
      simp only [client] at stepped
      split at stepped
      · cases stepped
        have finished : s.gate.noteRequestFinished.active = s.gate.active := by
          unfold CommLossSimulation.noteRequestFinished
          split <;> rfl
        cases outcome with
        | answered now | failed | unrecorded =>
            have off : s.gate.noteRequestFinished.active = false := off
            rw [finished, on] at off
            cases off
      · cases stepped
  | resetSession | commsLoss on =>
      cases stepped
      exact (kept rfl off).elim
  | notified h =>
      simp only [client] at stepped
      split at stepped
      · cases stepped
      · split at stepped
        · cases stepped
          exact (kept rfl off).elim
        · cases stepped
          exact (kept rfl off).elim
  | handled h | clock elapsed wall =>
      simp only [client] at stepped
      split at stepped
      · cases stepped
        exact (kept rfl off).elim
      · cases stepped
  | simulate duration drainTimeout =>
      simp only [client] at stepped
      split at stepped
      · cases stepped
        exact (kept rfl off).elim
      · cases stepped
        let made := s.make ⟨.simulate duration drainTimeout, .calling, false⟩
        have own : made.op s.next = _ := Client.op_make_self _
        rcases enter_opens (s := made) on off with clear | ⟨deadline, timer⟩
        · rw [own] at clear
          cases clear
        · rw [own] at timer
          cases timer
  | wake i =>
      simp only [client] at stepped
      split at stepped
      · rename_i deadline generation call
        split at stepped
        · rename_i due
          cases stepped
          rcases enter_opens on off with clear | ⟨deadline', timer⟩
          · rw [call] at clear
            cases clear
          · obtain ⟨rfl, -⟩ := Call.expire.inj (call.symm.trans timer)
            exact sound.base.due timer due.2.2
        · cases stepped
      · cases stepped
  | granted =>
      obtain ⟨i, turn, rfl⟩ := Option.map_eq_some_iff.mp stepped
      obtain ⟨-, waits, -⟩ := AsyncLock.next_eq_some turn
      refine ⟨i, turn, ?_⟩
      let given : Client := { s with lock := s.lock.grant i }
      rcases begin_opens (s := given) on off with clear | ⟨deadline, timer⟩
      · exact .inl clear
      · have queued := Client.queued_of_place ((sound.turns.queue i).mp waits)
        exact .inr (sound.base.due timer (sound.base.awake i deadline _ timer queued))
  | suspended i =>
      simp only [client] at stepped
      split at stepped
      · split at stepped
        · cases stepped
        · cases stepped
          rw [active_armGate] at off
          cases off
      · cases stepped
  | drained i inTime =>
      simp only [client] at stepped
      split at stepped
      · split at stepped
        · cases stepped
        · cases stepped
          exact (kept rfl off).elim
      · cases stepped
  | recovered i failure =>
      simp only [client] at stepped
      split at stepped
      · rename_i recovers
        have holds : s.places i = .holding := by rw [Client.places, recovers]; rfl
        have doing := sound.doing i ((sound.turns.holder i).mpr holds)
        rw [recovers] at doing
        rw [doing.1] at on
        cases on
      · cases stepped
  | cancelCall i =>
      simp only [client] at stepped
      split at stepped
      · cases stepped
        exact (kept rfl off).elim
      · cases stepped
  | unwind i =>
      simp only [client] at stepped
      split at stepped
      · rename_i cancelled
        cases stepped
        obtain ⟨window, held, opening⟩ := unwind_opens sound on off
        exact ⟨window, cancelled.1, held, opening⟩
      · cases stepped
  | shutdown =>
      cases stepped
      refine (kept ?_ off).elim
      unfold Client.stop
      split <;> rfl

/-- The timer of a window of ten seconds, after ten seconds. -/
theorem opens_by_timer : ∃ s,
    client.exec (Client.fresh true) [.simulate 10 5, .clock 10 0] = some s ∧
    s.Opens (.wake 1) := by
  have shut : (client.exec (Client.fresh true) [.simulate 10 5, .clock 10 0]).map
      (fun s => s.gate.active) = some true := by decide +kernel
  obtain ⟨s, executed, on⟩ := Option.map_eq_some_iff.mp shut
  have woken : ((client.exec (Client.fresh true) [.simulate 10 5, .clock 10 0]).bind fun s =>
      (client.step (.wake 1) s).map fun t => t.gate.active) = some false := by decide +kernel
  rw [executed, Option.bind_some] at woken
  obtain ⟨t, stepped, off⟩ := Option.map_eq_some_iff.mp woken
  exact ⟨s, executed, opens_by (Machine.run_of_exec _ executed) on stepped off⟩

end Py20305.Simulation
