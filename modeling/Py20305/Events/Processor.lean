import Py20305.Events.World

/-!
The coroutines of `events/processor.py`, in the source's order from the leaves
up: posting responses, dispatching controls, falling back to defaults,
supersession, cancellation, the timer callbacks, comms loss and the control
poll. Each awaits where the source awaits and nowhere else.

A loop that ends the whole call on shutdown is a recursion of its own, whose
rounds say whether to stop.
-/

namespace Py20305

open Coroutine Co

/-- A step that is made only in some cases. -/
def onlyIf (c : Prop) [Decidable c] (m : Proc Unit) : Proc Unit := if c then m else pure ()

/-- Continue unless the processor has been shut down. -/
def unlessClosed (rest : Proc Unit) : Proc Unit := do
  let w ← getWorld
  if w.closed then pure () else rest

/-- The test a loop makes after an await. -/
def stopIfClosed : Proc Bool := do
  let w ← getWorld
  pure w.closed

/-! ### Responses -/

/-- `ResponseTracker.reserve`. -/
def reserve (key : ResponseKey) : Proc Bool := do
  let w ← getWorld
  if key ∈ w.responses.sent.keys then pure false
  else if key ∈ w.responses.inFlight.keys then waitFor (.settled key)
  else do
    perform (.claim key)
    pure true

/-- `post_der_response`. -/
def postDerResponse (derc : Dercontrol) (code : ResponseCode) (lfdi : Lfdi) (now : Int) :
    Proc Unit := do
  let w ← getWorld
  let code := resolveWireCode w.settings.edition derc code
  if responseRequiredAllows derc.responseRequired code = false then pure ()
  else
    match extractHref derc.replyTo with
    | none => pure ()
    | some _ => do
        let mustPost ← reserve ⟨derc.mrid, code, lfdi⟩
        onlyIf (mustPost = true) do
          let _landed ← waitFor (.post ⟨derc.mrid, code, lfdi⟩ now)
          pure ()

/-- `_supported_modes2`: the bits themselves go into the response unread. -/
def supportedModes2 (lfdi : Lfdi) : Proc Unit := do
  let w ← getWorld
  onlyIf (w.settings.asksModes2 = true) (waitFor (.supportedModes2 lfdi))

/-- Post a response for one device identity. -/
def respondFor (derc : Dercontrol) (code : ResponseCode) (lfdi : Lfdi) : Proc Unit := do
  let w ← getWorld
  supportedModes2 lfdi
  postDerResponse derc code lfdi (w.clock none)

/-- Post a response for one device, if its identity is known. -/
def respondForDevice (derc : Dercontrol) (code : ResponseCode) (d : Href) : Proc Unit := do
  let w ← getWorld
  match w.deviceLfdi d with
  | none => pure ()
  | some lfdi => respondFor derc code lfdi

/-- `_post_response_for_devices`, over a set of devices. -/
def postResponseForDevices (derc : Dercontrol) (code : ResponseCode) (devices : List Href) :
    Proc Unit := do
  let w ← getWorld
  forEach (w.settings.order devices) (respondForDevice derc code)

/-- `_post_response`. -/
def postResponse (derc : Dercontrol) (code : ResponseCode) (program : Href)
    (exclude : List Href) : Proc Unit := do
  let w ← getWorld
  let devices := w.devicesOf program
  if devices = [] then
    -- No mapping: any known device, unless there is someone to leave out.
    if exclude ≠ [] then pure ()
    else
      match w.anyLfdi with
      | none => pure ()
      | some lfdi => respondFor derc code lfdi
  else
    forEach devices fun d => if d ∈ exclude then pure () else respondForDevice derc code d

/-- `_post_started_device_lifecycle`. -/
def postStartedDeviceLifecycle (r : Ref) (code : ResponseCode) : Proc Unit := do
  let w ← getWorld
  let record := w.record r
  if record.appliedDevices = [] ∧ record.rejectedDevices = [] then
    postResponse record.derc code record.programHref record.supersededDevices
  else
    postResponseForDevices record.derc code
      (record.appliedDevices.filter (· ∉ record.supersededDevices))

/-! ### Dispatch -/

/-- Make several dispatcher calls at once and wait for all of them. -/
def gatherCalls (calls : List Call) : Proc (Nat → Option DispatchFailure) := do
  perform (.issue calls)
  if calls = [] then pure fun _ => none else waitFor (.gather calls)

/-- The outcome of `n` dispatches of a gather, from position `from_` on. -/
def allLanded (results : Nat → Option DispatchFailure) (from_ n : Nat) : Bool :=
  (List.range n).all fun i => (results (from_ + i)).isNone

/-- `respond` of `_apply_and_respond`: report one device by its own outcome. -/
def respondOutcome (r : Ref) (d : Href) (failure : Option DispatchFailure) : Proc Unit := do
  match failure with
  | none => do
      perform (.addApplied r d)
      let w ← getWorld
      postResponseForDevices (w.record r).derc .active [d]
  | some f => do
      perform (.addRejected r d)
      let w ← getWorld
      perform (.unregister d (w.record r).mrid)
      postResponseForDevices (w.record r).derc (responseCodeForDispatchError f) [d]

/-- `dispatch_and_report`, the task made for each target. -/
def dispatchAndReport (r : Ref) (d : Href) : Proc Unit := do
  let w ← getWorld
  let call := Call.control (.href d) (w.record r).mrid (w.record r).derc.base
  perform (.issue [call])
  let failure ← waitFor (.dispatch call)
  respondOutcome r d failure
  perform .finishChild

/-- The outcome the group's single server-side device is reported with: failed
only when every local device failed, or when there is none. -/
def aggregateOutcome (lfdis : List Lfdi) (results : Nat → Option DispatchFailure) :
    Option DispatchFailure :=
  if lfdis = [] then some .deviceNotConfigured
  else if (List.range lfdis.length).all fun i => (results i).isSome then results 0
  else none

/-- `_dispatch_by_lfdi_group`. -/
def dispatchByLfdiGroup (r : Ref) (lfdis : List Lfdi) (targets : List Href) : Proc Unit := do
  let w ← getWorld
  let results ← gatherCalls
    (lfdis.map fun l => .control (.lfdi l) (w.record r).mrid (w.record r).derc.base)
  forEach targets fun d => respondOutcome r d (aggregateOutcome lfdis results)

/-- `_apply_and_respond`, with `_apply_control_to_devices` in it. -/
def applyAndRespond (r : Ref) : Proc Unit := do
  let w ← getWorld
  let record := w.record r
  let targets := (w.uniqueDevices record.programHref).filter (· ∉ record.supersededDevices)
  if targets = [] then
    postResponse record.derc .active record.programHref record.supersededDevices
  else do
    forEach targets fun d => perform (.register d record.mrid (getActiveModeNames record.derc.base))
    match w.groupLocalLfdis record.programHref with
    | some lfdis => dispatchByLfdiGroup r lfdis targets
    | none => do
        perform (.spawn r targets)
        waitFor .join

/-! ### Falling back to the default -/

/-- A default to be written for a device. -/
structure DefaultTarget where
  device : Href
  lfdi : Lfdi
  program : DerProgramState
  epoch : Nat
  effective : DefaultDercontrol
  isPartial : Bool

/-- What `_apply_dderc_fallback` decides before it dispatches anything. -/
structure FallbackPlan where
  defaults : List DefaultTarget := []
  withdraw : List (Href × Finset Mode) := []
  clear : List Href := []
  defaultModes : Finset Mode := ∅

namespace Core

variable (w : Core)

/-- Whether another event took over everything this one set on the device, and
some event is running there. -/
def leftToOthers (r : Ref) (active : List Ref) (d : Href) : Bool :=
  let record := w.record r
  d ∈ record.supersededDevices && comparedModeKeys record.derc.base ⊆ record.modesTaken d &&
    w.deviceHasOtherActive d record.mrid active

/-- Whether the device is to fall back, given the modes the event released
there. -/
def needsFallback (r : Ref) (active : List Ref) (released : Href → Finset Mode) (d : Href) : Bool :=
  !w.leftToOthers r active d &&
    (released d ≠ ∅ || !w.deviceHasOtherActive d (w.record r).mrid active)

/-- The default of `best` as it may be sent for device `d`, and the modes left
out of it because a running event holds them. -/
def maskedDefault (active : List Ref) (d : Href) (best : DerProgramState)
    (dderc : DefaultDercontrol) : DefaultDercontrol × Finset Mode :=
  let taken := getActiveModeNames dderc.base ∩
    w.modesRunningIn (w.reachOf best.href [d]) active
  (if taken = ∅ then dderc else defaultWithout dderc taken, taken)

/-- One device of the plan. -/
def planDevice (active : List Ref) (released : Href → Finset Mode) (clearIfNoDderc : Bool)
    (plan : FallbackPlan) (d : Href) : FallbackPlan :=
  match w.deviceLfdi d with
  | none => plan
  | some lfdi =>
      match w.bestDdercProgramForDevice d with
      | none =>
          if clearIfNoDderc then { plan with clear := plan.clear ++ [d] }
          else if released d ≠ ∅ then { plan with withdraw := plan.withdraw ++ [(d, released d)] }
          else plan
      | some (best, dderc) =>
          let carried := getActiveModeNames dderc.base
          let masked := w.maskedDefault active d best dderc
          let written := carried \ masked.2
          let uncovered := released d \ written
          let emptied := carried ≠ ∅ ∧ written = ∅
          { plan with
            defaultModes := plan.defaultModes ∪ written
            withdraw := if uncovered = ∅ then plan.withdraw else plan.withdraw ++ [(d, uncovered)]
            defaults :=
              if ¬ emptied ∧ w.dderc.shouldApply lfdi best.href best.primacy = true then
                plan.defaults ++
                  [⟨d, lfdi, best, w.epoch best.href, masked.1, masked.2 ≠ ∅⟩]
              else plan.defaults }

/-- The plan over all devices that need a fallback. -/
def fallbackPlan (active : List Ref) (released : Href → Finset Mode) (clearIfNoDderc : Bool)
    (needs : List Href) : FallbackPlan :=
  needs.foldl (w.planDevice active released clearIfNoDderc) {}

/-- The calls that write one default: to the program's group, or to the device. -/
def defaultCalls (cause : Option Mrid) (d : Href) (program : Href) (dderc : DefaultDercontrol) :
    List Call :=
  (w.reachOf program [d]).map fun t => .defaultControl t dderc cause

/-- The calls that withdraw what the default does not bring back. In a group a
mode is disabled only when no server-side device of the program still needs
it. -/
def withdrawCalls (r : Ref) (devices : List Href) (plan : FallbackPlan) : List Call :=
  let record := w.record r
  match w.groupLocalLfdis record.programHref with
  | none => plan.withdraw.map fun e => .disableModes (.href e.1) e.2 record.mrid
  | some lfdis =>
      let stillNeeded := plan.defaultModes ∪ unionModes
        (devices.map fun d => w.modes.covered d record.mrid)
      let gone := unionModes (plan.withdraw.map Prod.snd) \ stillNeeded
      if gone = ∅ then []
      else lfdis.eraseDups.map fun l => .disableModes (.lfdi l) gone record.mrid

/-- The calls that clear the devices no default exists for. -/
def clearCalls (r : Ref) (plan : FallbackPlan) : List Call :=
  let record := w.record r
  match w.groupLocalLfdis record.programHref with
  | none => plan.clear.eraseDups.map fun d => .clearControl (.href d) record.mrid
  | some lfdis => lfdis.eraseDups.map fun l => .clearControl (.lfdi l) record.mrid

end Core

/-- Remember the defaults that reached every device they were sent to. A default
sent without some of its modes is not remembered. -/
def recordDefaults (results : Nat → Option DispatchFailure) :
    Nat → List (DefaultTarget × List Call) → Proc Unit
  | _, [] => pure ()
  | from_, (target, calls) :: rest => do
      let w ← getWorld
      onlyIf (allLanded results from_ calls.length = true ∧ target.isPartial = false)
        (perform (.recordDderc target.lfdi target.program.href target.effective.mrid
          (w.objectOf target.epoch target.program).primacy))
      recordDefaults results (from_ + calls.length) rest

/-- The dispatch of the planned defaults. -/
def dispatchDefaults (r : Ref) (plan : FallbackPlan) : Proc Unit := onlyIf (plan.defaults ≠ []) do
  let w ← getWorld
  let plans := plan.defaults.map fun t =>
    (t, w.defaultCalls (some (w.record r).mrid) t.device t.program.href t.effective)
  let results ← gatherCalls (plans.flatMap Prod.snd)
  recordDefaults results 0 plans

/-- The withdrawal of what the defaults do not bring back. -/
def withdrawReleased (r : Ref) (devices : List Href) (plan : FallbackPlan) : Proc Unit :=
  onlyIf (plan.withdraw ≠ []) do
    let w ← getWorld
    let _ ← gatherCalls (w.withdrawCalls r devices plan)
    pure ()

/-- The clearing of the devices without a default. -/
def clearDevices (r : Ref) (plan : FallbackPlan) : Proc Unit := onlyIf (plan.clear ≠ []) do
  let w ← getWorld
  let _ ← gatherCalls (w.clearCalls r plan)
  pure ()

/-- `_apply_dderc_fallback`. -/
def applyDdercFallback (r : Ref) (clearIfNoDderc : Bool) : Proc Unit := do
  let w ← getWorld
  let record := w.record r
  let devices := w.uniqueDevices record.programHref
  let active := w.activeEvents
  let released := fun d => w.modes.released d record.mrid
  -- What is released on a device depends on its own registrations alone.
  forEach devices fun d => perform (.unregister d record.mrid)
  let needs := devices.filter (w.needsFallback r active released)
  if needs = [] then pure ()
  else do
    let w ← getWorld
    let plan := w.fallbackPlan active released clearIfNoDderc needs
    dispatchDefaults r plan
    withdrawReleased r devices plan
    clearDevices r plan

/-! ### The initial default -/

namespace Core

variable (w : Core)

/-- Whether a cancelled event of the program still has timers. -/
def cancelledPending (p : Href) : Bool :=
  (w.store.byState .cancelled).any fun r =>
    (w.record r).programHref = p && w.hasPending (w.record r).mrid

/-- The devices `_apply_initial_dderc` writes to, with their identities. -/
def initialTargets (ps : DerProgramState) (p : Href) (dderc : DefaultDercontrol) :
    List (Href × Lfdi) :=
  (w.uniqueDevices p).filterMap fun d =>
    if w.activeEvents.any (w.runsOn d) then none
    else
      match w.deviceLfdi d with
      | none => none
      | some lfdi =>
          if w.dderc.shouldApplyInitial lfdi p dderc.mrid ps.primacy then some (d, lfdi) else none

end Core

/-- Remember the initial default for the targets it reached whole. -/
def recordInitial (results : Nat → Option DispatchFailure) (p : Href) (mrid : Mrid)
    (ps : DerProgramState) (epoch : Nat) (perTarget : Nat) : Nat → List (Href × Lfdi) → Proc Unit
  | _, [] => pure ()
  | from_, (_, lfdi) :: rest => do
      let w ← getWorld
      onlyIf (allLanded results from_ perTarget = true)
        (perform (.recordDderc lfdi p mrid (w.objectOf epoch ps).primacy))
      recordInitial results p mrid ps epoch perTarget (from_ + perTarget) rest

/-- `_apply_initial_dderc`. -/
def applyInitialDderc (p : Href) : Proc Unit := do
  let w ← getWorld
  match w.discovered.derPrograms.get? p with
  | none => pure ()
  | some ps =>
      match ps.defaultDercontrol with
      | none => pure ()
      | some dderc =>
          if w.cancelledPending p = true then pure ()
          else
            let targets := w.initialTargets ps p dderc
            if targets = [] then pure ()
            else
              let carried := getActiveModeNames dderc.base
              let taken := carried ∩
                w.modesRunningIn (w.reachOf p (targets.map Prod.fst)) w.activeEvents
              if carried ≠ ∅ ∧ carried \ taken = ∅ then pure ()
              else do
                let effective := if taken = ∅ then dderc else defaultWithout dderc taken
                let results ← gatherCalls
                  (targets.flatMap fun t => w.defaultCalls none t.1 p effective)
                let perTarget := ((w.groupLocalLfdis p).map List.length).getD 1
                recordInitial results p dderc.mrid ps (w.epoch p) perTarget 0 targets

/-! ### Transitions -/

/-- `EventStore.transition`, by mRID: a `KeyError` where nothing is stored. -/
def transition (mrid : Mrid) (st : EventState) : Proc Unit := do
  let w ← getWorld
  match w.store.get? mrid with
  | none => raise
  | some r => perform (.setState r st)

/-- The end of one result of `_run_supersession`: an event superseded on every
device of its program is over. -/
def supersedeIfFully (deviceMap : ProgramDevices) (r : Ref) : Proc Unit := do
  let w ← getWorld
  let record := w.record r
  let programDevices := deviceMap.getD record.programHref []
  onlyIf (programDevices ≠ [] ∧ ∀ d ∈ programDevices, d ∈ record.supersededDevices) do
    transition record.mrid .superseded
    perform (.cancelTimers record.mrid)
    onlyIf (record.state = .active) (applyDdercFallback r false)

/-- One result of `_run_supersession`. -/
def supersede (deviceMap : ProgramDevices) (result : SupersessionResult) : Proc Unit := do
  let w ← getWorld
  match w.store.get? result.supersededMrid, w.store.get? result.supersedingMrid with
  | some r, some by_ =>
      let record := w.record r
      if record.state.isTerminal = true then pure ()
      -- Deferred until the superseding event starts.
      else if (w.record by_).state = .scheduled ∧ record.state = .active then pure ()
      else do
        perform (.addSuperseded r result.affectedDevices)
        perform (.hold [r])
        postResponseForDevices record.derc .superseded
          (result.affectedDevices.filter fun d =>
            d ∉ record.supersededDevices ∧ d ∉ record.rejectedDevices)
        perform (.hold [])
        onlyIf (result.affectedModes ≠ ∅)
          (perform (.addSupersededModes r result.affectedDevices result.affectedModes))
        supersedeIfFully deviceMap r
  | _, _ => pure ()

/-- `_run_supersession`. -/
def runSupersession : Proc Unit := do
  let w ← getWorld
  let events := w.store.allActiveStates
  if events.length < 2 then pure ()
  else
    let deviceMap := w.discovered.deviceMapping.programToDevices
    forEach (computeSupersession (events.map w.record) deviceMap) (supersede deviceMap)

/-- `_handle_cancellation` after its transition, given the record as it was. -/
def cancellationTail (r : Ref) (record : EventRecord) : Proc Unit := do
  perform (.cancelTimers record.mrid)
  postStartedDeviceLifecycle r .cancelled
  onlyIf (record.state = .active) do
    let w ← getWorld
    let windDown := cancellationWindDown (w.record r)
    if 0 < windDown then
      perform (.schedule ⟨r, .windDown, w.localClock + windDown, none⟩)
    else applyDdercFallback r false

/-- `_handle_cancellation`. -/
def handleCancellation (r : Ref) : Proc Unit := do
  let w ← getWorld
  transition (w.record r).mrid .cancelled
  cancellationTail r (w.record r)

/-- `_opt_out_event`. -/
def optOutEvent (r : Ref) : Proc Unit := do
  perform (.setOptedOut r)
  let w ← getWorld
  perform (.raiseBoundary (w.record r).end)
  perform (.cancelTimers (w.record r).mrid)
  applyDdercFallback r true

/-- Schedule the completion timer of an event. -/
def scheduleCompletion (r : Ref) : Proc Unit := do
  let w ← getWorld
  perform (.schedule ⟨r, .completion, (w.record r).end, some (w.fsaScope (w.record r).programHref)⟩)

/-- `_handle_new_scheduled`. -/
def handleNewScheduled (r : Ref) : Proc Unit := do
  let w ← getWorld
  postResponse (w.record r).derc .acknowledged (w.record r).programHref []
  unlessClosed do
    let w ← getWorld
    perform (.schedule
      ⟨r, .activation, (w.record r).start, some (w.fsaScope (w.record r).programHref)⟩)

/-- The tail shared by `_handle_late_discovery` and `_on_activation`. -/
def startEvent (r : Ref) : Proc Unit := do
  runSupersession
  unlessClosed do
    applyAndRespond r
    unlessClosed (scheduleCompletion r)

/-- `_handle_late_discovery`. -/
def handleLateDiscovery (r : Ref) : Proc Unit := do
  let w ← getWorld
  if w.commsLoss then optOutEvent r
  else do
    postResponse (w.record r).derc .acknowledged (w.record r).programHref []
    unlessClosed (startEvent r)

/-- Wait out a rediscovery. -/
def awaitStateReady : Proc Unit := do
  let w ← getWorld
  onlyIf (w.stateReady = false) (waitFor .stateReady)

/-- `_on_activation`. -/
def onActivation (r : Ref) : Proc Unit := do
  awaitStateReady
  let w ← getWorld
  if (w.record r).state ≠ .scheduled then pure ()
  else do
    transition (w.record r).mrid .active
    let w ← getWorld
    if w.commsLoss then optOutEvent r else startEvent r

/-- `_on_completion`. -/
def onCompletion (r : Ref) : Proc Unit := do
  awaitStateReady
  let w ← getWorld
  if (w.record r).state ≠ .active then pure ()
  else do
    transition (w.record r).mrid .completed
    postStartedDeviceLifecycle r .completed
    applyDdercFallback r false

/-- The end of `_wait_and_fire`: nothing runs for an event that has ended. -/
def fireTimer (callback : Callback) (r : Ref) : Proc Unit := do
  let w ← getWorld
  if (w.record r).state.isTerminal = true then pure ()
  else
    match callback with
    | .activation => onActivation r
    | .completion => onCompletion r
    | .windDown => applyDdercFallback r false

/-! ### Program removal and comms loss -/

/-- `cancel_program`. -/
def cancelProgram (p : Href) : Proc Unit := do
  let w ← getWorld
  forEach (w.store.allActiveStates.filter fun r => (w.record r).programHref = p) fun r => do
    transition (w.record r).mrid .cancelled
    perform (.cancelTimers (w.record r).mrid)

/-- `enter_comms_loss`. -/
def enterCommsLoss : Proc Unit := do
  let w ← getWorld
  let active := w.activeEvents
  forEach active fun r => perform (.raiseBoundary (w.record r).end)
  forEach active fun r => do
    perform (.setOptedOut r)
    perform (.cancelTimers (w.record r).mrid)
  forEach active fun r => applyDdercFallback r true

/-! ### The control poll -/

/-- The record made for a control met for the first time. -/
def newRecord (derc : Dercontrol) (p : Href) (primacy : Nat) (st : EventState)
    (start duration : Int) : EventRecord where
  mrid := derc.mrid
  derc := derc
  programHref := p
  primacy := primacy
  state := st
  start := start
  duration := duration
  serverStatusTime := (derc.eventStatus.bind (·.dateTime)).getD 0
  creationTime := derc.creationTime.getD 0

/-- The start offset rule m) gives an event, if it gives one. -/
def Core.successiveOffset (w : Core) (p : Href) (derc : Dercontrol) (offset : Int) : Int :=
  match w.findSuccessivePredecessor p derc.start with
  | none => offset
  | some pred => (w.record pred).end - derc.start

/-- Draw the offsets of a control and adjust its start to a predecessor. -/
def effectiveOffsets (p : Href) (derc : Dercontrol) : Proc (Int × Int) := do
  let w ← getWorld
  let drawn := (w.offsets.getOffsets derc (w.draws 0)).1
  perform (.drawOffsets derc)
  let w ← getWorld
  let start := w.successiveOffset p derc drawn.1
  if start = drawn.1 then pure drawn
  else do
    perform (.overrideOffset derc start)
    pure (start, drawn.2)

/-- A control whose event is stored already. -/
def knownControl (r : Ref) (derc : Dercontrol) : Proc Bool := do
  perform (.refresh r derc ((derc.eventStatus.bind (·.dateTime)).getD 0))
  let w ← getWorld
  if isServerCancelled derc = true ∧ (w.record r).state.isTerminal = false then do
    handleCancellation r
    stopIfClosed
  else pure false

/-- Set a new event going. -/
def introduce (st : EventState) (r : Ref) : Proc Unit :=
  if st = .scheduled then handleNewScheduled r else handleLateDiscovery r

/-- Store a new event and set it going. -/
def storeNew (p : Href) (derc : Dercontrol) (record : EventRecord) : Proc Bool := do
  let w ← getWorld
  let r := w.store.next
  if isServerCancelled derc = true then do
    perform (.upsert { record with state := .cancelled })
    postResponse derc .cancelled p []
    stopIfClosed
  else do
    perform (.upsert record)
    perform (.clearDderc ((w.devicesOf p).filterMap w.deviceLfdi))
    introduce record.state r
    stopIfClosed

/-- A control whose event is not stored. -/
def newControl (p : Href) (primacy : Nat) (now : Int) (derc : Dercontrol) (start duration : Int) :
    Proc Bool := do
  let w ← getWorld
  if w.resumeAfter.any (start ≤ ·) = true then pure false
  else if start + duration < now then
    if w.responses.hasResponded derc.mrid = true then pure false
    else do
      postResponse derc .expired p []
      stopIfClosed
  else
    storeNew p derc (newRecord derc p primacy (if start ≤ now then .active else .scheduled)
      start duration)

/-- One round of the loop over the served controls. -/
def processControl (p : Href) (primacy : Nat) (now : Int) (derc : Dercontrol) : Proc Bool := do
  let offsets ← effectiveOffsets p derc
  let w ← getWorld
  match w.store.get? derc.mrid with
  | some r => knownControl r derc
  | none => newControl p primacy now derc (derc.start + offsets.1) (derc.duration + offsets.2)

/-- The loop over the served controls, by position in a list that a refresh may
replace between two rounds, for at most the given number of rounds. -/
def processServed (ps : DerProgramState) (epoch : Nat) (primacy : Nat) (now : Int) :
    Nat → Nat → Proc Bool
  | _, 0 => pure false
  | i, rounds + 1 => do
      let w ← getWorld
      match (w.objectOf epoch ps).derControls[i]? with
      | none => pure false
      | some derc => do
          let stop ← processControl ps.href primacy now derc
          if stop then pure true else processServed ps epoch primacy now (i + 1) rounds

/-- Rule p): cancel the events the server took back, one after the other. -/
def cancelRemoved (now : Int) : List Ref → Proc Bool
  | [] => pure false
  | r :: rest => do
      let w ← getWorld
      if (w.record r).end ≤ now then cancelRemoved now rest
      else do
        perform (.hold rest)
        handleCancellation r
        perform (.hold [])
        let stop ← stopIfClosed
        if stop then pure true else cancelRemoved now rest

/-- The events of a program rule p) finds missing from the served list. -/
def Core.unserved (w : Core) (p : Href) (ps : DerProgramState) : List Ref :=
  w.store.allActiveStates.filter fun r =>
    (w.record r).programHref = p ∧ (w.record r).mrid ∉ ps.derControls.map (·.mrid)

/-- Rule p), on a complete list only. -/
def reconcileServed (ps : DerProgramState) (epoch : Nat) (now : Int) : Proc Bool := do
  let w ← getWorld
  let current := w.objectOf epoch ps
  if current.derControlsComplete then cancelRemoved now (w.unserved ps.href current)
  else pure false

/-- The end of `process_controls`: supersession, pruning and the default. -/
def finishPoll (p : Href) (now : Int) : Proc Unit := do
  runSupersession
  unlessClosed do
    perform (.pruneStore now)
    perform (.pruneOffsets now)
    perform (.pruneResponses now)
    applyInitialDderc p

/-- `process_controls`. The list of controls can grow while the loop is
suspended; `room` is how many rounds more than its present length there may
be. -/
def processControls (p : Href) (room : Nat) : Proc Unit := unlessClosed do
  let w ← getWorld
  match w.discovered.derPrograms.get? p with
  | none => pure ()
  | some ps => do
      let now := w.now p
      let stop ← processServed ps (w.epoch p) ps.primacy now 0 (ps.derControls.length + room)
      if stop then pure ()
      else do
        let stop ← reconcileServed ps (w.epoch p) now
        if stop then pure () else finishPoll p now

end Py20305
