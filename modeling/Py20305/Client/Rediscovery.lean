import Py20305.Lib.Machine
import Py20305.Client.State

/-!
Rediscovery (`CsipClient.trigger_rediscovery`), the poll scheduler it rebuilds and
the notifications that arrive meanwhile.

A task goes from one await to the next. `trigger_rediscovery` holds the lock for one
or more passes; a pass cancels the polls of the scheduler, makes a new scheduler, walks
the server and schedules the polls again. A task on which `cancel` was called gets a
`CancelledError` where it waits next.

What the server answers is the discovered state that results, so that other tasks may
change it at any time (`ClientLabel.update`). Left out: the walk itself
(`Client.Discovery`), the subscriptions (`Subscription.Manager`), the events' own
effects, and the shutdown of the client.
-/

namespace Py20305

/-! ### Polls -/

/-- The keys polls are scheduled under. -/
inductive PollKey where
  | dcap | edev | fsa | derp | tariff | time | connectivity | commsLoss | sub
  deriving DecidableEq, Repr

/-- What a client is configured with. -/
structure ClientSettings where
  pricingEnabled : Bool := false
  connectionHeartbeatSeconds : Int := 0
  commsLossSeconds : Int := 0
  commsLossEvalSeconds : Int := 0
  reconcileEnabled : Bool := false
  reconcileIntervalSeconds : Int := 0
  hasSubscriptionManager : Bool := false
  /-- `_on_rediscovered` is set. -/
  hasListener : Bool := false

def defaultPollRate : Int := 900

def minPollRate : Int := 10

/-- `normalize_poll_rate`. -/
def normalizePollRate (rawValue : Option Int) (dflt : Int) : Option Int :=
  match rawValue with
  | none => some dflt
  | some raw => if raw ≤ 0 then none else some (max minPollRate raw)

/-- A program, under its path. -/
abbrev KnownProgram := Href × Derprogram

/-- The discovered state, as far as rediscovery and the control notifications read it. -/
structure Known where
  pollRates : Dict PollKey (Option Int) := Dict.empty
  programs : List KnownProgram := []
  /-- There are active subscriptions. -/
  subscribed : Bool := false

namespace Known

variable (k : Known)

/-- `poll_rates.get(key)`. -/
def rate (key : PollKey) : Option Int := (k.pollRates.get? key).join

/-- `find_program_for_resource`. -/
def findProgram (resource : Href) : Option KnownProgram :=
  k.programs.find? fun e =>
    extractHref e.2.dercontrolListLink = some resource ∨
      extractHref e.2.defaultDercontrolLink = some resource

/-- `_sub_poll_rate`. -/
def subPollRate (settings : ClientSettings) : Option Int :=
  normalizePollRate
    (if settings.reconcileIntervalSeconds > 0 then some settings.reconcileIntervalSeconds
      else k.rate .sub) defaultPollRate

/-- The polls `_start_polls` schedules, in its order. -/
def polls (settings : ClientSettings) : List (PollKey × Int) :=
  let advertised (key : PollKey) : List (PollKey × Int) := ((k.rate key).map (key, ·)).toList
  advertised .dcap ++ advertised .edev ++ advertised .fsa ++ advertised .derp ++
    (if settings.pricingEnabled then
      -- `rates.get("tariff") or DEFAULT_POLL_RATE`: 0 counts as absent.
      [(.tariff, ((k.rate .tariff).filter fun rate => rate ≠ 0).getD defaultPollRate)]
    else []) ++
    advertised .time ++
    (if settings.connectionHeartbeatSeconds > 0 then
      [(.connectivity, settings.connectionHeartbeatSeconds)] else []) ++
    (if settings.commsLossSeconds > 0 then [(.commsLoss, settings.commsLossEvalSeconds)] else []) ++
    (if settings.reconcileEnabled ∧ settings.hasSubscriptionManager then
      ((k.subPollRate settings).map (PollKey.sub, ·)).toList else [])

end Known

/-! ### Tasks -/

/-- A task: the poll loop of a scheduled poll, or any other. -/
inductive TaskId where
  | poll (n : Nat)
  | other (n : Nat)
  deriving DecidableEq, Repr

/-- `PollScheduler`: each key's interval and its task. -/
structure Scheduler where
  shutdown : Bool := false
  polls : Dict PollKey (Int × TaskId) := Dict.empty

/-- The tasks of its polls. -/
def Scheduler.tasks (s : Scheduler) : List TaskId := s.polls.values.map Prod.snd

/-- What a task does. -/
inductive Activity where
  /-- The given pass of `trigger_rediscovery`. -/
  | rediscovery (passes : Nat)
  /-- `_route_default_notification` for a control resource: of the program, or of all if
  none was found. -/
  | notification (program : Option Href)

/-- What a task waits for. -/
inductive Stage where
  /-- The polls of the old scheduler, in `cancel_all`. -/
  | cancelling
  /-- The renewal task, which was cancelled. -/
  | renewal
  | discovering
  /-- `reconcile` and `reconcile_with_server`, or `cancel_all` of the subscriptions. -/
  | reconciling
  | refreshingFsas
  | refreshingPrograms
  /-- `_auto_subscribe`. -/
  | subscribing
  /-- The GET of a program's DefaultDERControl; the programs after it. -/
  | dderc (program : KnownProgram) (rest : List KnownProgram)
  /-- The GET of its DERCurveList. -/
  | curves (program : KnownProgram) (rest : List KnownProgram)
  /-- The GET of its DERControlList. -/
  | derc (program : KnownProgram) (rest : List KnownProgram)
  /-- `process_controls`; the programs after this one. -/
  | processing (rest : List Href)
  /-- `_on_rediscovered`. -/
  | listening

/-- How a call ended. -/
inductive Ending where
  | returned (ok : Bool)
  | raised
  | cancelled
  deriving DecidableEq, Repr

inductive TaskState where
  | waiting (activity : Activity) (stage : Stage)
  | ended (how : Ending)

/-- What is observed: a control notification comes in, a GET goes out. -/
inductive ClientEvent where
  | received (resource : Href)
  | get (href : Href)
  deriving DecidableEq, Repr

structure Client where
  known : Known := {}
  schedulers : Nat → Scheduler := fun _ => {}
  /-- `self._scheduler`. -/
  scheduler : Nat := 0
  nextScheduler : Nat := 1
  nextPoll : Nat := 0
  /-- Who holds `_rediscovery_lock`. -/
  owner : Option TaskId := none
  /-- `_rediscovery_pending`. -/
  pending : Bool := false
  /-- A renewal task runs. -/
  renewing : Bool := false
  cancelled : List TaskId := []
  tasks : TaskId → Option TaskState := fun _ => none
  log : List ClientEvent := []

/-- `_MAX_REDISCOVERY_PASSES`. -/
def maxRediscoveryPasses : Nat := 5

namespace Client

variable (settings : ClientSettings) (c : Client)

def current : Scheduler := c.schedulers c.scheduler

def setCurrent (s : Scheduler) : Client :=
  { c with schedulers := Function.update c.schedulers c.scheduler s }

def wait (p : TaskId) (activity : Activity) (stage : Stage) : Client :=
  { c with tasks := Function.update c.tasks p (some (.waiting activity stage)) }

def finish (p : TaskId) (how : Ending) : Client :=
  { c with tasks := Function.update c.tasks p (some (.ended how)) }

def release : Client := { c with owner := none }

/-- A GET goes out. -/
def get (href : Href) : Client := { c with log := c.log ++ [.get href] }

/-! ### The scheduler -/

/-- `PollScheduler.schedule`: a poll of the same key is replaced. -/
def schedule (key : PollKey) (interval : Int) : Client :=
  let replaced := ((c.current.polls.get? key).map Prod.snd).toList
  { c.setCurrent { c.current with
      polls := c.current.polls.set key (interval, .poll c.nextPoll) } with
    nextPoll := c.nextPoll + 1
    cancelled := replaced ++ c.cancelled }

/-- `_start_polls`. -/
def startPolls : Client :=
  (c.known.polls settings).foldl (fun acc e => acc.schedule e.1 e.2) c

/-! ### A pass -/

/-- The state is cleared and the walk begins. -/
def discover (p : TaskId) (passes : Nat) : Client :=
  { c with known := { subscribed := c.known.subscribed } }.wait p (.rediscovery passes) .discovering

/-- The polls of the old scheduler are gone: make a new one, and cancel the renewal
task. -/
def rebuild (p : TaskId) (passes : Nat) : Client :=
  let made : Client := { c with
    schedulers := Function.update c.schedulers c.nextScheduler {}
    scheduler := c.nextScheduler
    nextScheduler := c.nextScheduler + 1 }
  if c.renewing then
    { made with renewing := false }.wait p (.rediscovery passes) .renewal
  else made.discover p passes

/-- The beginning of a pass: `PollScheduler.cancel_all`, which waits if there are
polls. -/
def beginPass (p : TaskId) (passes : Nat) : Client :=
  let down := { c.setCurrent { c.current with shutdown := true } with pending := false }
  if c.current.polls.keys = [] then down.rebuild p passes
  else
    { down with cancelled := c.current.tasks ++ c.cancelled }.wait p (.rediscovery passes)
      .cancelling

/-- The end of a pass that went through: schedule the polls, and go on with another
pass if one was asked for. -/
def finishPass (p : TaskId) (passes : Nat) : Client :=
  let armed := c.startPolls settings
  if c.pending = true ∧ passes < maxRediscoveryPasses then armed.beginPass p (passes + 1)
  else
    let left := { armed with pending := false }.release
    if settings.hasListener then left.wait p (.rediscovery passes) .listening
    else left.finish p (.returned true)

/-- A pass that failed: schedule the polls all the same. -/
def failPass (p : TaskId) : Client :=
  (c.startPolls settings).release.finish p (.returned false)

/-! ### Refreshing the controls -/

/-- `process_controls` for each program, then the end of what the task does. -/
def process (p : TaskId) (activity : Activity) : List Href → Client
  | [] =>
      match activity with
      | .rediscovery passes => c.finishPass settings p passes
      | .notification _ => c.finish p (.returned true)
  | _ :: rest => c.wait p activity (.processing rest)

/-- The programs whose controls are processed. -/
def toProcess : Activity → List Href
  | .notification (some program) => [program]
  | _ => c.known.programs.map Prod.fst

/-- The GET of the control list, if there is a link. -/
def getDerc (p : TaskId) (activity : Activity) (program : KnownProgram)
    (rest : List KnownProgram) (next : Client) : Client :=
  match extractHref program.2.dercontrolListLink with
  | some href => (c.get href).wait p activity (.derc program rest)
  | none => next

/-- The GET of the curve list, if there is a link. -/
def getCurves (p : TaskId) (activity : Activity) (program : KnownProgram)
    (rest : List KnownProgram) (next : Client) : Client :=
  match extractHref program.2.dercurveListLink with
  | some href => (c.get href).wait p activity (.curves program rest)
  | none => c.getDerc p activity program rest next

/-- `refresh_der_controls` and `refresh_der_controls_for_program`, over the programs
left. -/
def refreshControls (p : TaskId) (activity : Activity) : List KnownProgram → Client
  | [] => c.process settings p activity (c.toProcess activity)
  | program :: rest =>
      match extractHref program.2.defaultDercontrolLink with
      | some href => (c.get href).wait p activity (.dderc program rest)
      | none => c.getCurves p activity program rest (refreshControls p activity rest)

/-! ### Steps -/

/-- What `p` waits for has returned. -/
def answered (p : TaskId) : Activity → Stage → Option Client
  | .rediscovery passes, .cancelling =>
      some ((c.setCurrent { c.current with polls := Dict.empty }).rebuild p passes)
  | .rediscovery passes, .renewal => some (c.discover p passes)
  | .rediscovery passes, .discovering =>
      some (c.wait p (.rediscovery passes)
        (if settings.hasSubscriptionManager then .reconciling else .refreshingFsas))
  | .rediscovery passes, .reconciling =>
      some ({ c with renewing := c.known.subscribed }.wait p (.rediscovery passes) .refreshingFsas)
  | .rediscovery passes, .refreshingFsas =>
      some (c.wait p (.rediscovery passes) .refreshingPrograms)
  | .rediscovery passes, .refreshingPrograms =>
      if settings.hasSubscriptionManager then some (c.wait p (.rediscovery passes) .subscribing)
      else some (c.refreshControls settings p (.rediscovery passes) c.known.programs)
  | .notification program, .refreshingPrograms =>
      some (c.refreshControls settings p (.notification program) c.known.programs)
  | .rediscovery passes, .subscribing =>
      some (c.refreshControls settings p (.rediscovery passes) c.known.programs)
  | activity, .dderc program rest =>
      some (c.getCurves p activity program rest (c.refreshControls settings p activity rest))
  | activity, .curves program rest =>
      some (c.getDerc p activity program rest (c.refreshControls settings p activity rest))
  | activity, .derc _ rest => some (c.refreshControls settings p activity rest)
  | activity, .processing rest => some (c.process settings p activity rest)
  | .rediscovery _, .listening => some (c.finish p (.returned true))
  | _, _ => none

/-- It has raised. The waits before the walk do not raise. -/
def raised (p : TaskId) : Activity → Stage → Option Client
  | .rediscovery _, .cancelling | .rediscovery _, .renewal => none
  | .rediscovery _, .listening => some (c.finish p .raised)
  | .rediscovery _, _ => some (c.failPass settings p)
  | .notification _, _ => some (c.finish p .raised)

/-- `p` gets a `CancelledError`, which ends it and gives its lock back; the wait for the
renewal task swallows it. -/
def interrupted (p : TaskId) : Activity → Stage → Client
  | .rediscovery passes, .renewal => { c with cancelled := c.cancelled.erase p }.discover p passes
  | _, _ => (if c.owner = some p then c.release else c).finish p .cancelled

/-- `p` can make a call: it exists, has not been cancelled and waits for nothing. -/
def canCall (p : TaskId) : Bool :=
  p ∉ c.cancelled && (match p with | .poll n => decide (n < c.nextPoll) | .other _ => true) &&
    match c.tasks p with
    | some (.waiting _ _) => false
    | _ => true

/-- `trigger_rediscovery`. -/
def triggerRediscovery (p : TaskId) : Client :=
  if c.owner.isSome then { c with pending := true }.finish p (.returned false)
  else { c with owner := some p }.beginPass p 1

/-- `_route_default_notification` for a control resource: it is dropped while a
rediscovery runs. -/
def routeNotification (p : TaskId) (resource : Href) : Client :=
  let heard : Client := { c with log := c.log ++ [.received resource] }
  if c.owner.isSome then heard.finish p (.returned true)
  else
    match c.known.findProgram resource with
    | some program =>
        heard.refreshControls settings p (.notification (some program.1)) [program]
    | none => heard.wait p (.notification none) .refreshingPrograms

end Client

inductive ClientLabel where
  /-- `run` schedules the polls. -/
  | run
  /-- A task calls `trigger_rediscovery`. -/
  | call (p : TaskId)
  /-- A structural notification that is a duplicate. -/
  | duplicate
  /-- A task handles a control notification. -/
  | notify (n : Nat) (resource : Href)
  | answer (p : TaskId)
  | fail (p : TaskId)
  /-- The discovered state changes. -/
  | update (known : Known)

/-- One step. -/
def clientStep (settings : ClientSettings) : ClientLabel → Client → Option Client
  | .run, c => some (c.startPolls settings)
  | .call p, c => if c.canCall p then some (c.triggerRediscovery p) else none
  | .duplicate, c => some (if c.owner.isSome then { c with pending := true } else c)
  | .notify n resource, c =>
      if c.canCall (.other n) then some (c.routeNotification settings (.other n) resource) else none
  | .answer p, c =>
      match c.tasks p with
      | some (.waiting activity stage) =>
          if p ∈ c.cancelled then some (c.interrupted p activity stage)
          else c.answered settings p activity stage
      | _ => none
  | .fail p, c =>
      match c.tasks p with
      | some (.waiting activity stage) =>
          if p ∈ c.cancelled then none else c.raised settings p activity stage
      | _ => none
  | .update known, c => some { c with known := known }

/-- The client. -/
@[reducible] def client (settings : ClientSettings) : Machine where
  State := Client
  Label := ClientLabel
  step := clientStep settings

end Py20305
