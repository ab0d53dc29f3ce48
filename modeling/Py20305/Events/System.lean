import Py20305.Events.Processor

/-!
The processor as a system of tasks.

Tasks are the calls made to the processor from outside, the timer callbacks and
the per-device tasks of a dispatch. Between their steps the clocks move, the
discovered state is refreshed or rediscovered, groups are rebuilt and the
comms-loss mode is set and cleared: `Ext` lets each of these happen to any
value at any time.

`World.alone` is the run of one task with nothing else going on; the children
of a dispatch run one after the other.
-/

namespace Py20305

open Coroutine

/-- The tasks there can be. -/
inductive Job where
  | processControls (p : Href) (room : Nat)
  | cancelProgram (p : Href)
  | enterCommsLoss
  | shutdown
  | timer (callback : Callback) (r : Ref)
  | dispatchAndReport (r : Ref) (d : Href)

/-- What a task runs. -/
def Job.body : Job → Proc Unit
  | processControls p room => Py20305.processControls p room
  | cancelProgram p => Py20305.cancelProgram p
  | enterCommsLoss => Py20305.enterCommsLoss
  | shutdown => perform .close
  | timer callback r => fireTimer callback r
  | dispatchAndReport r d => Py20305.dispatchAndReport r d

/-- Starting a task: a timer once its time has come, a child once it was made,
a call from outside at any time. -/
def Core.begins (w : Core) (p : Pid) : Job → Option Core
  | .timer callback r =>
      match w.sleeping.get? p with
      | none => none
      | some t =>
          if t.ref = r ∧ t.callback = callback ∧ t.target ≤ w.timerNow t.scope ∧ w.closed = false
            then some { w with sleeping := w.sleeping.erase p, current := p }
            else none
  | .dispatchAndReport r d =>
      if w.spawned.get? p = some (r, d) then
        some { w with spawned := w.spawned.erase p, current := p }
      else none
  | _ => if p = w.nextPid then some { w with nextPid := p + 1, current := p } else none

/-- Starting a task, in the state with its history. -/
def World.begins (w : World) (p : Pid) (j : Job) : Option World :=
  (w.toCore.begins p j).map fun core => { w with toCore := core }

/-- What happens around the processor. -/
inductive Ext where
  | clocks (clock : Option Href → Int) (localClock : Int)
  | discovered (state : DiscoveredState) (epoch : Href → Nat) (ready : Bool)
  | groups (lookup : Option (Href → Option (List Lfdi)))
  | commsLoss (active : Bool) (resumeAfter : Option Int)

/-- Its effect. -/
def Ext.apply (w : Core) : Ext → Core
  | clocks clock localClock => { w with clock := clock, localClock := localClock }
  | discovered state epoch ready =>
      { w with discovered := state, epoch := epoch, stateReady := ready }
  | groups lookup => { w with groupLookup := lookup }
  | commsLoss active resumeAfter => { w with commsLoss := active, resumeAfter := resumeAfter }

/-- The event processor. -/
@[reducible] def processor : System ProcSig where
  Job := Job
  body := Job.body
  begins := fun p j w => w.begins p j
  replies := fun p r a w => w.reply p r a
  Ext := Ext
  ext := fun e w => some { w with toCore := e.apply w.toCore }

/-- A processor that has just been made. -/
structure Core.Fresh (w : Core) : Prop where
  closed : w.closed = false
  store : w.store = {}
  offsets : w.offsets = {}
  responses : w.responses = {}
  dderc : w.dderc = {}
  modes : w.modes = {}
  timers : w.timers = Dict.empty
  sleeping : w.sleeping = Dict.empty
  children : w.children = Dict.empty
  spawned : w.spawned = Dict.empty
  cancelled : w.cancelled = []

/-- A new processor and no task. -/
def start (w : Core) : Config ProcSig where
  state := { toCore := w }
  pool := fun _ => none

/-! ### One task alone -/

/-- How the server and the devices answer. -/
structure Answers where
  landed : ResponseKey → Bool := fun _ => true
  outcome : Call → Option DispatchFailure := fun _ => none

namespace World

/-- The state after an answer, where the answer can be given. -/
def answered (w : World) (r : Request) (a : r.Answer) : World := (w.reply w.current r a).getD w

/-- Answers to everything but `join`. -/
def leafOracle (env : Answers) : Co.Oracle ProcSig
  | .stateReady, w => ((), w.answered .stateReady ())
  | .supportedModes2 lfdi, w => ((), w.answered (.supportedModes2 lfdi) ())
  | .settled key, w =>
      let claims : Bool := decide (key ∉ w.responses.sent.keys)
      (claims, w.answered (.settled key) claims)
  | .post key at_, w => (env.landed key, w.answered (.post key at_) (env.landed key))
  | .dispatch call, w => (env.outcome call, w.answered (.dispatch call) (env.outcome call))
  | .gather calls, w =>
      let outcomes := fun i => (calls[i]?).bind env.outcome
      (outcomes, w.answered (.gather calls) outcomes)
  | .join, w => ((), w)

/-- Run the children of a dispatch, one after the other, for the task `parent`. -/
def runChildren (env : Answers) (parent : Pid) (w : World) : World :=
  let done := w.spawned.entries.foldl (fun w e =>
    match w.begins e.1 (.dispatchAndReport e.2.1 e.2.2) with
    | none => w
    | some w' => (dispatchAndReport e.2.1 e.2.2).final (leafOracle env) w') w
  { done with current := parent }

/-- Run one of the children. -/
def runChild (env : Answers) (w : World) (child : Pid × Ref × Href) : World :=
  match w.begins child.1 (.dispatchAndReport child.2.1 child.2.2) with
  | none => w
  | some w' => (dispatchAndReport child.2.1 child.2.2).final (leafOracle env) w'

theorem runChildren_eq (env : Answers) (parent : Pid) (w : World) :
    w.runChildren env parent =
      { w.spawned.entries.foldl (runChild env) w with current := parent } := rfl

/-- Answers to everything, with nothing else going on. -/
def oracle (env : Answers) : Co.Oracle ProcSig
  | .join, w => ((), runChildren env w.current w)
  | r, w => leafOracle env r w

/-- The state after a task that runs with nothing else going on. -/
def alone (env : Answers) (p : Pid) (j : Job) (w : World) : Option World :=
  (w.begins p j).map (j.body.final (oracle env))

end World

/-! ### Small scenarios -/

/-- Settings in which sets are enumerated as they are listed. -/
def Settings.plain : Settings where
  edition := .ed2023
  asksModes2 := false
  takesControls := fun _ => true
  order := id
  order_perm := fun _ => List.Perm.refl _

/-- An event with one mode, acknowledged and answered in full. -/
def plainControl (mrid : Mrid) (start duration : Int) (mode : Mode) : Dercontrol where
  mrid := mrid
  start := start
  duration := duration
  randomizeStart := none
  randomizeDuration := none
  eventStatus := none
  creationTime := none
  base := ⟨{mode}⟩
  responseRequired := some 7
  replyTo := some "/rsp"

/-- A program with a complete control list and no default. -/
def plainProgram (href : Href) (primacy : Nat) (controls : List Dercontrol) : DerProgramState where
  program :=
    { primacy := some primacy, defaultDercontrolLink := none, dercontrolListLink := none,
      dercurveListLink := none }
  href := href
  primacy := primacy
  derControls := controls
  derControlsComplete := true

/-- A new processor at time 0, over the given programs and (program, device)
pairs. Each device's LFDI is its href. -/
def plainCore (programs : List DerProgramState) (pairs : List (Href × Href)) : Core where
  settings := .plain
  clock := fun _ => 0
  localClock := 0
  discovered :=
    { endDevices := pairs.foldl (fun devices pair => devices.set pair.2
        { device := { lfdi := some pair.2, functionSetAssignmentsListLink := none }
          lfdi := pair.2
          fsaList := [] }) Dict.empty
      derPrograms := programs.foldl (fun ps p => ps.set p.href p) Dict.empty
      deviceMapping := pairs.foldl (fun m pair => m.add pair.1 pair.2) DeviceMapping.empty }

/-- Everything lands and succeeds. -/
def Request.success : (r : Request) → r.Answer
  | stateReady => ()
  | supportedModes2 _ => ()
  | settled _ => true
  | post _ _ => true
  | dispatch _ => none
  | gather _ => fun _ => none
  | join => ()

theorem plainCore_fresh (programs : List DerProgramState) (pairs : List (Href × Href)) :
    (plainCore programs pairs).Fresh := by
  constructor <;> rfl

namespace World

/-- Both clocks at `now`. -/
def atTime (now : Int) (w : World) : World :=
  { w with clock := fun _ => now, localClock := now }

/-- A poll of a program that runs alone, everything succeeding. -/
def polled (p : Href) (w : World) : World :=
  (w.alone {} w.nextPid (.processControls p 0)).getD w

/-- The timer with the given task, firing alone, everything succeeding. -/
def fired (pid : Pid) (w : World) : World :=
  match w.sleeping.get? pid with
  | none => w
  | some t => (w.alone {} pid (.timer t.callback t.ref)).getD w

end World

end Py20305
