import Py20305.Events.Responses
import Py20305.Events.Supersession
import Py20305.Events.Trackers
import Py20305.Lib.Coroutine

/-!
The state of one `EventProcessor`, and the signature its coroutines are written
over.

`Core` is what the processor and its surroundings hold: the discovered state,
the clocks, the event store, the trackers and the timers. A timer is asleep
until its task starts; `timers` is the task table `_tasks` of the timer
manager, which only `cancel` takes entries out of. `World` adds three records
that no modelled function reads: the responses that landed, the dispatcher
calls made (each with the state it was made in) and the records a suspended
task has in hand to transition later.

Audit records, schedule relays, curves and setpoint values are left out: they
are written and passed on, and no decision is taken on them.
-/

namespace Py20305

open Coroutine (Pid Sig Co)

/-! ### Devices and dispatcher calls -/

/-- What a dispatch is addressed to: a server-side device, or a local device of
a group. The two are kept apart as `_reach_of` keeps them apart. -/
inductive Target where
  | href (d : Href)
  | lfdi (l : Lfdi)
  deriving DecidableEq, Repr

/-- The calls made to the dispatcher. -/
inductive Call where
  /-- `apply_control`, `apply_control_by_lfdi`. -/
  | control (t : Target) (mrid : Mrid) (base : DercontrolBase)
  /-- `apply_default_control`, `apply_default_control_by_lfdi`. -/
  | defaultControl (t : Target) (dderc : DefaultDercontrol) (cause : Option Mrid)
  /-- `disable_modes`, `disable_modes_by_lfdi`. -/
  | disableModes (t : Target) (modes : Finset Mode) (cause : Mrid)
  /-- `clear_control`, `clear_control_by_lfdi`. -/
  | clearControl (t : Target) (cause : Mrid)
  deriving DecidableEq

/-! ### Timers -/

/-- What a timer runs when it fires. -/
inductive Callback where
  | activation | completion | windDown
  deriving DecidableEq, Repr

/-- One sleeping timer: the record it was scheduled with and when it fires, on
the server's clock of a scope or, without one, on the local clock. -/
structure Timer where
  ref : Ref
  callback : Callback
  target : Int
  scope : Option (Option Href)
  deriving DecidableEq

/-! ### The state -/

/-- What does not change while the processor lives. Sets are enumerated in an
order nothing is known about. -/
structure Settings where
  edition : Edition
  asksModes2 : Bool
  takesControls : Lfdi → Bool
  order : List Href → List Href
  order_perm : ∀ ds, (order ds).Perm ds

/-- Everything the processor reads and writes. -/
structure Core where
  settings : Settings
  clock : Option Href → Int
  localClock : Int
  discovered : DiscoveredState
  /-- Counts how often the state object of a program was replaced. -/
  epoch : Href → Nat := fun _ => 0
  stateReady : Bool := true
  groupLookup : Option (Href → Option (List Lfdi)) := none
  commsLoss : Bool := false
  resumeAfter : Option Int := none
  closed : Bool := false
  store : EventStore := {}
  offsets : RandomizationCache := {}
  /-- The random numbers still to be drawn. -/
  draws : Nat → Nat × Nat := fun _ => (0, 0)
  responses : ResponseTracker := {}
  dderc : DdercTracker := {}
  modes : ActiveModeTracker := {}
  timers : Dict Mrid (List Pid) := Dict.empty
  sleeping : Dict Pid Timer := Dict.empty
  current : Pid := 0
  nextPid : Pid := 1
  /-- The tasks of a `gather` that have not finished, each with its parent. -/
  children : Dict Pid Pid := Dict.empty
  /-- Those of them that have not started. -/
  spawned : Dict Pid (Ref × Href) := Dict.empty
  cancelled : List Pid := []

/-- A dispatcher call and the state it was made in. -/
structure Issued where
  call : Call
  at_ : Core

/-- The state with its history. -/
structure World extends Core where
  posted : List ResponseKey := []
  issued : List Issued := []
  held : Pid → List Ref := fun _ => []

namespace Core

variable (w : Core)

/-- `_get_device_lfdi`. -/
def deviceLfdi (d : Href) : Option Lfdi := (w.discovered.endDevices.get? d).map (·.lfdi)

/-- `_get_any_lfdi`. -/
def anyLfdi : Option Lfdi := w.discovered.endDevices.values.head?.map (·.lfdi)

/-- `program_to_devices.get(p, [])`. -/
def devicesOf (p : Href) : List Href := w.discovered.deviceMapping.devices p

/-- `_unique_devices`. -/
def uniqueDevices (p : Href) : List Href := (w.devicesOf p).eraseDups

/-- `_fsa_scope`. -/
def fsaScope (p : Href) : Option Href :=
  (w.discovered.derPrograms.get? p).bind (·.discoveredFromFsaHref)

/-- `_timebase.now` in the scope of a program. -/
def now (p : Href) : Int := w.clock (w.fsaScope p)

/-- The current content of a program's state object that was read earlier:
refreshes change it in place, a rediscovery leaves it behind. -/
def objectOf (epoch : Nat) (ps : DerProgramState) : DerProgramState :=
  if w.epoch ps.href = epoch then (w.discovered.derPrograms.get? ps.href).getD ps else ps

/-- `_group_local_lfdis`. -/
def groupLocalLfdis (p : Href) : Option (List Lfdi) :=
  match w.groupLookup with
  | none => none
  | some lookup =>
      match lookup p with
      | none => none
      | some [] => none
      | some lfdis => some (lfdis.filter w.settings.takesControls)

/-- `_reach_of`. -/
def reachOf (p : Href) (devices : List Href) : List Target :=
  match w.groupLocalLfdis p with
  | some lfdis => lfdis.map .lfdi
  | none => devices.map .href

/-- The record object `r`. -/
def record (r : Ref) : EventRecord := w.store.object r

/-- The running events that were not opted out. -/
def activeEvents : List Ref :=
  (w.store.byState .active).filter fun r => !(w.record r).optedOut

/-- The modes a running event holds on what `reach` touches. -/
def modesRunningOf (reach : List Target) (r : Ref) : Finset Mode :=
  let program := (w.record r).programHref
  let devices := w.devicesOf program
  if (w.reachOf program devices).any (· ∈ reach) then
    unionModes ((devices.filter fun d =>
        (w.groupLocalLfdis program).isSome || Target.href d ∈ reach).map fun d =>
      w.modes.coveredAmong d (w.record r).mrid)
  else ∅

/-- `_modes_running_in`. -/
def modesRunningIn (reach : List Target) (active : List Ref) : Finset Mode :=
  unionModes (active.map (w.modesRunningOf reach))

/-- Whether event `r` counts as running on device `d`. -/
def runsOn (d : Href) (r : Ref) : Bool :=
  d ∈ w.devicesOf (w.record r).programHref && d ∉ (w.record r).supersededDevices &&
    d ∉ (w.record r).rejectedDevices

/-- `_device_has_other_active`. -/
def deviceHasOtherActive (d : Href) (mrid : Mrid) (active : List Ref) : Bool :=
  active.any fun r => (w.record r).mrid ≠ mrid && w.runsOn d r

/-- One program in the search for the best default of device `d`. -/
def betterDefault (d : Href) (best : Option (DerProgramState × DefaultDercontrol))
    (entry : Href × List Href) : Option (DerProgramState × DefaultDercontrol) :=
  if d ∉ entry.2 then best
  else
    match w.discovered.derPrograms.get? entry.1 with
    | none => best
    | some ps =>
        match ps.defaultDercontrol with
        | none => best
        | some dderc =>
            match best with
            | none => some (ps, dderc)
            | some (b, _) => if ps.primacy < b.primacy then some (ps, dderc) else best

/-- `_best_dderc_program_for_device`, with the default it has. -/
def bestDdercProgramForDevice (d : Href) : Option (DerProgramState × DefaultDercontrol) :=
  w.discovered.deviceMapping.programToDevices.entries.foldl (w.betterDefault d) none

/-- `_find_successive_predecessor`. -/
def findSuccessivePredecessor (p : Href) (rawStart : Int) : Option Ref :=
  w.store.allActiveStates.find? fun r =>
    (w.record r).programHref = p ∧
      (w.record r).derc.start + (w.record r).derc.duration = rawStart

/-- `has_pending`. -/
def hasPending (mrid : Mrid) : Bool := mrid ∈ w.timers.keys

/-- The clock a timer fires on. -/
def timerNow (scope : Option (Option Href)) : Int :=
  match scope with
  | none => w.localClock
  | some fsa => w.clock fsa

end Core

/-- `_is_server_cancelled`. -/
def isServerCancelled (derc : Dercontrol) : Bool := derc.eventStatus.any (·.currentStatus = 2)

/-- `_cancellation_wind_down`. -/
def cancellationWindDown (record : EventRecord) : Int :=
  max ((record.derc.randomizeStart.getD 0).natAbs : Int)
    ((record.derc.randomizeDuration.getD 0).natAbs : Int)

/-! ### Commands -/

/-- The changes a task makes between two waits. -/
inductive Cmd where
  | upsert (record : EventRecord)
  | setState (r : Ref) (st : EventState)
  | refresh (r : Ref) (derc : Dercontrol) (statusTime : Int)
  | addSuperseded (r : Ref) (devices : List Href)
  | addSupersededModes (r : Ref) (devices : List Href) (modes : Finset Mode)
  | addApplied (r : Ref) (d : Href)
  | addRejected (r : Ref) (d : Href)
  | setOptedOut (r : Ref)
  | pruneStore (now : Int)
  | pruneOffsets (now : Int)
  | pruneResponses (now : Int)
  | drawOffsets (derc : Dercontrol)
  | overrideOffset (derc : Dercontrol) (offset : Int)
  | register (d : Href) (mrid : Mrid) (modes : Finset Mode)
  | unregister (d : Href) (mrid : Mrid)
  | clearDderc (lfdis : List Lfdi)
  | recordDderc (lfdi : Lfdi) (path : Href) (mrid : Mrid) (primacy : Nat)
  | raiseBoundary (e : Int)
  | claim (key : ResponseKey)
  | schedule (timer : Timer)
  | cancelTimers (mrid : Mrid)
  | spawn (r : Ref) (devices : List Href)
  | finishChild
  | close
  | issue (calls : List Call)
  | hold (refs : List Ref)

namespace EventRecord

/-- The server's update of a known event: an absent creationTime keeps the old
one. -/
def refreshed (derc : Dercontrol) (statusTime : Int) (record : EventRecord) : EventRecord :=
  { record with
    derc := derc
    serverStatusTime := statusTime
    creationTime := derc.creationTime.getD record.creationTime }

/-- `superseded_modes[dev] |= modes`, for each of the devices. -/
def withModesTaken (devices : List Href) (modes : Finset Mode) (record : EventRecord) :
    EventRecord :=
  { record with
    supersededModes := devices.foldl (fun taken d => taken.set d (taken.getD d ∅ ∪ modes))
      record.supersededModes }

end EventRecord

namespace Core

/-- Cancel tasks, with the gathers they wait for. A cancelled task gives its
claims back. -/
def endTasks (w : Core) (tasks : List Pid) : Core :=
  let gone := tasks ++ (w.children.entries.filter fun e => e.2 ∈ tasks).map Prod.fst
  { w with
    sleeping := w.sleeping.filter fun pid _ => pid ∉ gone
    spawned := w.spawned.filter fun pid _ => pid ∉ gone
    children := w.children.filter fun pid _ => pid ∉ gone
    responses := w.responses.releaseOf gone
    cancelled := gone ++ w.cancelled }

/-- `EventTimerManager.cancel`: the task that asks for it goes on. -/
def cancelTimers (w : Core) (mrid : Mrid) : Core :=
  { w.endTasks ((w.timers.getD mrid []).filter (· ≠ w.current)) with
    timers := w.timers.erase mrid }

/-- The record each `schedule_*` makes: a task in the table, asleep. -/
def schedule (w : Core) (timer : Timer) : Core :=
  let mrid := (w.record timer.ref).mrid
  { w with
    timers := w.timers.set mrid (w.timers.getD mrid [] ++ [w.nextPid])
    sleeping := w.sleeping.set w.nextPid timer
    nextPid := w.nextPid + 1 }

/-- Start one child of a `gather`. -/
def spawnChild (w : Core) (r : Ref) (d : Href) : Core :=
  { w with
    children := w.children.set w.nextPid w.current
    spawned := w.spawned.set w.nextPid (r, d)
    nextPid := w.nextPid + 1 }

/-- `shutdown`, as far as the processor's own tasks go. -/
def close (w : Core) : Core :=
  { w.endTasks w.timers.values.flatten with
    closed := true
    timers := Dict.empty }

/-- Change a record object in place. -/
def withRecord (w : Core) (r : Ref) (change : EventRecord → EventRecord) : Core :=
  { w with store := w.store.update r change }

/-- The effect of a command on the processor. -/
def exec (w : Core) : Cmd → Core
  | .upsert record => { w with store := w.store.upsert record }
  | .setState r st => w.withRecord r fun record => { record with state := st }
  | .refresh r derc statusTime => w.withRecord r (EventRecord.refreshed derc statusTime)
  | .addSuperseded r devices => w.withRecord r fun record =>
      { record with supersededDevices := record.supersededDevices ∪ devices }
  | .addSupersededModes r devices modes => w.withRecord r (EventRecord.withModesTaken devices modes)
  | .addApplied r d => w.withRecord r fun record =>
      { record with appliedDevices := record.appliedDevices.insert d }
  | .addRejected r d => w.withRecord r fun record =>
      { record with rejectedDevices := record.rejectedDevices.insert d }
  | .setOptedOut r => w.withRecord r fun record => { record with optedOut := true }
  | .pruneStore now => { w with store := w.store.pruneExpired now }
  | .pruneOffsets now => { w with offsets := w.offsets.prune now }
  | .pruneResponses now => { w with responses := w.responses.prune now }
  | .drawOffsets derc =>
      { w with
        offsets := (w.offsets.getOffsets derc (w.draws 0)).2
        draws := fun n => w.draws (n + 1) }
  | .overrideOffset derc offset => { w with offsets := w.offsets.overrideStartOffset derc offset }
  | .register d mrid modes => { w with modes := w.modes.register d mrid modes }
  | .unregister d mrid => { w with modes := w.modes.unregister d mrid }
  | .clearDderc lfdis => { w with dderc := w.dderc.clearDevices lfdis }
  | .recordDderc lfdi path mrid primacy =>
      { w with dderc := w.dderc.recordApplication lfdi path mrid primacy }
  | .raiseBoundary e => { w with resumeAfter := some (max (w.resumeAfter.getD 0) e) }
  | .claim key => { w with responses := w.responses.claim key w.current }
  | .schedule timer => w.schedule timer
  | .cancelTimers mrid => w.cancelTimers mrid
  | .spawn r devices => devices.foldl (fun w d => w.spawnChild r d) w
  | .finishChild => { w with children := w.children.erase w.current }
  | .close => w.close
  | .issue _ => w
  | .hold _ => w

end Core

/-- The effect of a command, with what is remembered of it. -/
def World.exec (c : Cmd) (w : World) : World :=
  { w with
    toCore := w.toCore.exec c
    issued :=
      match c with
      | .issue calls => w.issued ++ calls.map fun call => ⟨call, w.toCore⟩
      | _ => w.issued
    held :=
      match c with
      | .hold refs => Function.update w.held w.current refs
      | _ => w.held }

/-! ### Requests -/

/-- What a task can wait for. -/
inductive Request where
  /-- The end of a rediscovery. -/
  | stateReady
  /-- The dispatcher's answer to `supported_modes2`. -/
  | supportedModes2 (lfdi : Lfdi)
  /-- The end of another task's POST of the same response. -/
  | settled (key : ResponseKey)
  /-- The POST of a response, stamped with a time. -/
  | post (key : ResponseKey) (at_ : Int)
  /-- One control dispatch, under the activation deadline. -/
  | dispatch (call : Call)
  /-- Several dispatches at once. -/
  | gather (calls : List Call)
  /-- The end of every child. -/
  | join

/-- The answers: a claim or not, landed or not, and how a dispatch failed. The
dispatches of a `gather` are answered by position. -/
@[reducible] def Request.Answer : Request → Type
  | stateReady => Unit
  | supportedModes2 _ => Unit
  | settled _ => Bool
  | post _ _ => Bool
  | dispatch _ => Option DispatchFailure
  | gather _ => Nat → Option DispatchFailure
  | join => Unit

/-- The signature of the processor's coroutines. -/
@[reducible] def ProcSig : Sig where
  State := World
  Cmd := Cmd
  Req := Request
  Ans := Request.Answer
  exec := World.exec

/-- A coroutine of the processor. -/
abbrev Proc (α : Type) := Co ProcSig α

/-- Read the state. -/
def getWorld : Proc World := .read .ret

/-- Issue a command. -/
def perform (c : Cmd) : Proc Unit := .act c (.ret ())

/-- Wait for a request. -/
def waitFor (r : Request) : Proc r.Answer := .wait r .ret

section Binds

variable {β : Type}

@[simp] theorem getWorld_bind (k : World → Proc β) : Co.bind getWorld k = .read k := rfl

@[simp] theorem perform_bind (c : Cmd) (k : Unit → Proc β) :
    Co.bind (perform c) k = .act c (k ()) := rfl

@[simp] theorem waitFor_bind (r : Request) (k : r.Answer → Proc β) :
    Co.bind (waitFor r) k = .wait r k := rfl

end Binds

/-- What an answer does to the state, or `none` where it cannot be given now. -/
def Core.reply (w : Core) (p : Pid) : (r : Request) → r.Answer → Option Core
  | .stateReady, _ => if w.stateReady then some w else none
  | .supportedModes2 _, _ => some w
  | .settled key, claims =>
      if key ∈ w.responses.sent.keys then (if claims then none else some w)
      else if key ∈ w.responses.inFlight.keys then none
      else if claims then some { w with responses := w.responses.claim key p }
      else none
  | .post key at_, landed =>
      some { w with
        responses := if landed then w.responses.markSent key at_ else w.responses.release key }
  | .dispatch _, _ => some w
  | .gather _, _ => some w
  | .join, _ => if w.children.values.any (· = p) then none else some w

/-- An answer, with what is remembered of it. A cancelled task gets none. -/
def World.reply (w : World) (p : Pid) (r : Request) (a : r.Answer) : Option World :=
  if p ∈ w.cancelled then none
  else
    (w.toCore.reply p r a).map fun core =>
      { w with
        toCore := { core with current := p }
        posted :=
          match r, a with
          | .post key _, true => w.posted ++ [key]
          | _, _ => w.posted }

end Py20305
