import Py20305.Connectors.Applying
import Py20305.Events.Cancellation
import Py20305.Events.Written
import Py20305.Lib.Machine

/-!
What a device that rejected an event keeps of it.

A dispatch to a device can fail after some of the modes were written, or be reported as
rejected at its deadline while the writes go on. Reporting it takes the event's registration on
the device back, and the release at the event's end goes by the registration: of what the event
wrote there, only the modes that a default brings back are written over
(`rejected_keeps_none_iff`).

One dispatch, to one target, is followed from its first write on. The event's end takes three
steps: the transition, after which it posts its responses, the plan of the fallback with the
defaults it sends, and the withdrawal. Between them, and between the calls they make, the
dispatch goes on or is reported, and everything else may change in any way that leaves the
event and its registrations alone (`Others`).
-/

namespace Py20305.Rejection

open Coroutine Co Connectors

/-! ### One dispatch -/

/-- An event on its way to a target. -/
structure Dispatch where
  event : Ref
  mrid : Mrid
  base : DercontrolBase
  /-- The server-side devices the event is sent to. -/
  targets : List Href
  target : Target

/-- The devices that are reported by the outcome on the target: itself, or for a local device of
a group all of them. -/
def Dispatch.answering (D : Dispatch) : List Href :=
  match D.target with
  | .href d => [d]
  | .lfdi _ => D.targets

/-- How an event leaves ACTIVE: by its completion timer, by the server's cancellation or with its
program. -/
inductive Exit where
  | completion | cancellation | removal
  deriving DecidableEq

/-- How far the event is. -/
inductive Stage where
  | running
  /-- It has left ACTIVE, and its task posts the responses. -/
  | leaving (exit : Exit)
  /-- Its fallback waits for the defaults. -/
  | falling (devices : List Href) (plan : FallbackPlan)
  | finished

/-- The fallback has not begun. -/
def Stage.isEarly : Stage → Bool
  | running | leaving _ => true
  | _ => false

def Stage.isFinished : Stage → Bool
  | finished => true
  | _ => false

/-- The processor, what is in effect on the target, the control on its way there, and the calls
of the event's end that have still to be made. -/
structure Delivery where
  world : World
  effect : Mode → Option Writer
  applying : Applying
  reported : Bool := false
  stage : Stage := .running
  pending : List Call := []

/-- What happens next. -/
inductive Happening where
  /-- A round of the dispatch. -/
  | apply (fate : Connectors.Fate)
  /-- The dispatch is reported as rejected: it failed, or its deadline is over. -/
  | report (f : DispatchFailure) (landed : ResponseKey → Bool)
  /-- The event leaves ACTIVE. -/
  | leave (exit : Exit)
  /-- The responses are posted: the fallback begins, where there is one. -/
  | fall
  /-- The defaults have been sent: what they do not bring back is withdrawn. -/
  | withdraw
  /-- A call of the event's end is made, and succeeds. -/
  | deliver
  | others (world : World) (effect : Mode → Option Writer)

/-- What the task of an exit does before it posts its responses. -/
def Exit.opening (mrid : Mrid) (p : Href) : Exit → Proc Unit
  | completion => transition mrid .completed
  | cancellation => do
      transition mrid .cancelled
      perform (.cancelTimers mrid)
  | removal => cancelProgram p

/-- The first part of the fallback of event `r`: its plan, and the defaults. -/
def Delivery.fallBack (r : Ref) (s : Delivery) : Delivery :=
  let w := s.world.unregistered r
  if s.world.fallbackNeeds r = [] then { s with world := w, stage := .finished }
  else
    let plan := s.world.planOf r false
    let calls := w.plannedCalls r plan
    { s with
      world := World.exec (.issue calls) w
      stage := .falling (s.world.uniqueDevices (s.world.record r).programHref) plan
      pending := calls }

/-- What the task of an exit does once the responses are posted. -/
def Delivery.close (r : Ref) (exit : Exit) (s : Delivery) : Delivery :=
  let windDown := cancellationWindDown (s.world.record r)
  match exit with
  | .completion => s.fallBack r
  | .cancellation =>
      if 0 < windDown then
        { s with
          world :=
            World.exec (.schedule ⟨r, .windDown, s.world.localClock + windDown, none⟩) s.world
          stage := .finished }
      else s.fallBack r
  | .removal => { s with stage := .finished }

/-- The dispatch as a machine. -/
def Dispatch.delivery (D : Dispatch) : Machine where
  State := Delivery
  Label := Happening
  step
    | .apply fate, s =>
        if s.applying.outcome.isSome = true then none
        else some { s with
          applying := s.applying.next fate
          effect := match s.applying.written fate with
            | none => s.effect
            | some m => Function.update s.effect m (some (.event D.mrid)) }
    | .report f landed, s =>
        if s.applying.outcome = some none ∨ s.reported = true then none
        else some { s with
          world := (Co.forEach D.answering fun d => respondOutcome D.event d (some f)).final
            (World.oracle { landed := landed }) s.world
          reported := true }
    | .leave exit, s =>
        match s.stage with
        | .running =>
            let record := s.world.record D.event
            if record.state = .active ∧ s.world.store.get? record.mrid = some D.event then some { s with
              world := (exit.opening record.mrid record.programHref).final (World.oracle {}) s.world
              stage := .leaving exit }
            else none
        | _ => none
    | .fall, s =>
        match s.stage with
        | .leaving exit => some (s.close D.event exit)
        | _ => none
    | .withdraw, s =>
        match s.stage, s.pending with
        -- What the tracker remembers of the defaults is one of the other things that happen.
        | .falling devices plan, [] =>
            let calls := s.world.withdrawCalls D.event devices plan
            some { s with
              world := World.exec (.issue calls) s.world, stage := .finished, pending := calls }
        | _, _ => none
    | .deliver, s =>
        match s.pending with
        | [] => none
        | call :: rest => some { s with
            pending := rest
            effect := fun m => (call.writes D.target m).or (s.effect m) }
    | .others world effect, s => some { s with world := world, effect := effect }

/-- The event is registered for nothing more. -/
structure Dispatch.Leaves (D : Dispatch) (w w' : World) : Prop where
  mrid : (w'.record D.event).mrid = (w.record D.event).mrid
  modes : ∀ d, w'.modes.modesOf d D.mrid ⊆ w.modes.modesOf d D.mrid

/-- What a withdrawal for the event reads stays: its program, the program's group, and what other
events hold. -/
structure Dispatch.Stands (D : Dispatch) (w w' : World) : Prop where
  mrid : (w'.record D.event).mrid = (w.record D.event).mrid
  program : (w'.record D.event).programHref = (w.record D.event).programHref
  group : w'.groupLocalLfdis (w.record D.event).programHref =
    w.groupLocalLfdis (w.record D.event).programHref
  others : ∀ d q, q ≠ (w.record D.event).mrid → w'.modes.modesOf d q = w.modes.modesOf d q

/-- What else happens: nobody else writes as the event. Up to its fallback the event is
registered for nothing more; from then on what its withdrawal reads stays. -/
def Dispatch.Others (D : Dispatch) (s : Delivery) (h : Happening) (_ : Delivery) : Prop :=
  match h with
  | .others world effect =>
      (∀ m, effect m = some (.event D.mrid) → s.effect m = some (.event D.mrid)) ∧
        match s.stage with
        | .running | .leaving _ => D.Leaves s.world world
        | .falling _ _ => D.Stands s.world world
        | .finished => True
  | _ => True

/-- Is it something else that happens? -/
def Happening.isOthers : Happening → Bool
  | others _ _ => true
  | _ => false

theorem Dispatch.others_of_own (D : Dispatch) {h : Happening} (s s' : Delivery)
    (own : h.isOthers = false) : D.Others s h s' := by
  cases h with
  | others => cases own
  | _ => trivial

/-- The dispatch begins: the event runs and is registered on the devices it is sent to, and
nothing is written yet. -/
structure Dispatch.Begun (D : Dispatch) (s : Delivery) : Prop where
  mrid : (s.world.record D.event).mrid = D.mrid
  active : (s.world.record D.event).state = .active
  registered : ∀ d, d ∉ D.targets → s.world.modes.modesOf d D.mrid = ∅
  applying : s.applying = ⟨translateControls D.base, false, none⟩
  unreported : s.reported = false
  stage : s.stage = .running
  pending : s.pending = []

/-! ### The end of the event -/

/-- The dispatch has settled and the event's end is over. -/
def Delivery.Settled (s : Delivery) : Prop :=
  s.applying.outcome.isSome = true ∧ s.pending = [] ∧ s.stage.isFinished = true

instance (s : Delivery) : Decidable s.Settled := by
  unfold Delivery.Settled; infer_instance

/-- From `s` on, whatever happens, the target keeps nothing of the event once all has settled. -/
def Dispatch.KeepsNone (D : Dispatch) (s : Delivery) : Prop :=
  ∀ s', D.delivery.Run D.Others s s' → s'.Settled →
    ∀ m, m.isWithdrawable = true → s'.effect m ≠ some (.event D.mrid)

/-- The fallback writes mode `m` of the target: a default brings it back or, as long as the event
was not reported as rejected there, it is withdrawn. -/
def Dispatch.Ends (D : Dispatch) (s : Delivery) (m : Mode) : Prop :=
  s.world.BringsBack D.event D.target m ∨
    s.reported = false ∧ s.world.Withdraws D.event D.target m

/-- The same, by how the event ends: after a wind-down, and with its program, nothing is sent. -/
def Dispatch.Releases (D : Dispatch) (s : Delivery) (exit : Exit) (m : Mode) : Prop :=
  match exit with
  | .completion => D.Ends s m
  | .cancellation => cancellationWindDown (s.world.record D.event) ≤ 0 ∧ D.Ends s m
  | .removal => False

section Ending

variable (env : Answers) {w : World} {r : Ref}

theorem eval_awaitStateReady (w : World) :
    awaitStateReady.eval (World.oracle env) w = (some (), w) := by
  unfold awaitStateReady onlyIf
  rw [eval_getWorld]
  split
  · rename_i waits
    have stays : w.answered .stateReady () = w := by
      unfold World.answered World.reply
      split
      · rfl
      · simp [Core.reply, waits]
    change (some (), w.answered .stateReady ()) = _
    rw [stays]
  · rfl

/-- What the end of the event sends, all in all, once the responses are posted. -/
def Exit.calls (w : World) (r : Ref) : Exit → List Call
  | completion => w.endCalls r
  | cancellation => if 0 < cancellationWindDown (w.record r) then [] else w.endCalls r
  | removal => []

/-- The fallback at the end of an event sends what it was to send in the state it ended in, with
the responses posted in between. -/
theorem eval_fallback_responded {w' : World} (responded : Responded w w')
    (named : w.discovered.Named) :
    ∃ w'' log, (applyDdercFallback r false).eval (World.oracle env) w' = (some (), w'') ∧
      w''.issued = w.issued ++ log ∧ log.map (·.call) = w.endCalls r := by
  obtain ⟨responses, posted, rfl⟩ := responded
  obtain ⟨w'', ran, sent⟩ := eval_fallback env r
    (w := { w with responses := responses, posted := posted }) false named
  obtain ⟨dderc, log, rfl, calls, -⟩ := sent
  exact ⟨_, log, ran, rfl, calls⟩

/-- The task of an exit. -/
def Exit.body (r : Ref) (p : Href) : Exit → Proc Unit
  | completion => fireTimer .completion r
  | cancellation => handleCancellation r
  | removal => cancelProgram p

theorem issued_completion (active : (w.record r).state = .active)
    (stored : w.store.get? (w.record r).mrid = some r) (named : w.discovered.Named) :
    let opened := (Exit.completion.opening (w.record r).mrid (w.record r).programHref).final
      (World.oracle {}) w
    ∃ log, ((Exit.completion.body r (w.record r).programHref).final (World.oracle env) w).issued =
        w.issued ++ log ∧ log.map (·.call) = Exit.completion.calls opened r := by
  let ended := World.exec (.setState r .completed) w
  have opened : (Exit.completion.opening (w.record r).mrid (w.record r).programHref).final
      (World.oracle {}) w = ended :=
    congrArg Prod.snd (eval_transition _ _ stored)
  obtain ⟨_, w₂, posted, responded⟩ :=
    eval_responds env (postStartedDeviceLifecycle_within r .completed) ended
  obtain ⟨w₃, log, fell, issued, calls⟩ := eval_fallback_responded env (r := r) responded named
  rw [opened]
  refine ⟨log, ?_, calls⟩
  have live : ¬ (w.record r).state.isTerminal = true := by
    rw [active]
    decide
  unfold Co.final Exit.body fireTimer
  rw [eval_getWorld, if_neg live]
  dsimp only
  unfold onCompletion
  rw [Co.bind_eq, Co.eval_bind, eval_awaitStateReady]
  dsimp only
  rw [eval_getWorld, if_neg (not_not.mpr active), Co.bind_eq, Co.eval_bind,
    eval_transition _ _ stored]
  dsimp only
  rw [Co.bind_eq, Co.eval_bind, posted]
  dsimp only
  rw [fell]
  exact issued

theorem issued_cancellation (active : (w.record r).state = .active)
    (stored : w.store.get? (w.record r).mrid = some r) (named : w.discovered.Named) :
    let opened := (Exit.cancellation.opening (w.record r).mrid (w.record r).programHref).final
      (World.oracle {}) w
    ∃ log, ((Exit.cancellation.body r (w.record r).programHref).final (World.oracle env) w).issued =
        w.issued ++ log ∧ log.map (·.call) = Exit.cancellation.calls opened r := by
  have opened : (Exit.cancellation.opening (w.record r).mrid (w.record r).programHref).final
      (World.oracle {}) w = endedWorld w r := by
    unfold Co.final Exit.opening
    rw [Co.bind_eq, Co.eval_bind, eval_transition _ _ stored]
    rfl
  have same : cancellationWindDown ((endedWorld w r).record r) =
      cancellationWindDown (w.record r) := by
    rw [endedWorld_record]
    rfl
  rw [opened]
  by_cases wind : 0 < cancellationWindDown (w.record r)
  · obtain ⟨-, -, -, issued⟩ := cancelledWorld_spec env active stored wind
    refine ⟨[], ?_, ?_⟩
    · rw [List.append_nil]
      exact issued
    · exact (if_pos (same ▸ wind)).symm
  · obtain ⟨_, w₂, posted, responded⟩ :=
      eval_responds env (postStartedDeviceLifecycle_within r .cancelled) (endedWorld w r)
    obtain ⟨w₃, log, fell, issued, calls⟩ :=
      eval_fallback_responded env (r := r) responded (named : (endedWorld w r).discovered.Named)
    have still : ¬ 0 < cancellationWindDown (w₂.record r) := by
      unfold Core.record
      rw [responded.store]
      change ¬ 0 < cancellationWindDown ((endedWorld w r).record r)
      rw [same]
      exact wind
    refine ⟨log, ?_, ?_⟩
    · unfold Co.final Exit.body handleCancellation
      rw [eval_getWorld, Co.bind_eq, Co.eval_bind, eval_transition _ _ stored]
      change (Co.eval _ ((postStartedDeviceLifecycle r .cancelled).bind _) (endedWorld w r)).2.issued
        = _
      rw [Co.eval_bind, posted]
      simp only [onlyIf, active, if_true]
      rw [eval_getWorld, if_neg still, fell]
      exact issued
    · exact calls.trans (if_neg (same ▸ wind)).symm

/-- Undisturbed, the task of a running event's exit issues the calls of its two sendings in the
state after its opening. -/
theorem issued_exit (exit : Exit) (active : (w.record r).state = .active)
    (stored : w.store.get? (w.record r).mrid = some r) (named : w.discovered.Named) :
    let opened := (exit.opening (w.record r).mrid (w.record r).programHref).final
      (World.oracle {}) w
    ∃ log, ((exit.body r (w.record r).programHref).final (World.oracle env) w).issued =
        w.issued ++ log ∧ log.map (·.call) = exit.calls opened r := by
  cases exit with
  | completion => exact issued_completion env active stored named
  | cancellation => exact issued_cancellation env active stored named
  | removal =>
      refine ⟨[], ?_, rfl⟩
      rw [List.append_nil]
      exact Co.eval_keeps (World.oracle env) (fun v : World => v.issued = w.issued)
        (fun c v listed same => by
          cases c with
          | setState | cancelTimers => exact same
          | issue calls => exact absurd listed (issue_effect_notMem calls (by decide) (by decide))
          | _ => simp [Cmd.effect] at listed)
        (fun _ _ waits => absurd waits List.not_mem_nil) (cancelProgram_within _) rfl

end Ending

/-! ### While the event runs -/

/-- What reporting the event as rejected on some devices does. -/
structure Reports (r : Ref) (ds : List Href) (w w' : World) : Prop where
  mrid : (w'.record r).mrid = (w.record r).mrid
  program : (w'.record r).programHref = (w.record r).programHref
  modes : ∀ d x, w'.modes.modesOf d x =
    if d ∈ ds ∧ x = (w.record r).mrid then ∅ else w.modes.modesOf d x
  group : ∀ p, w'.groupLocalLfdis p = w.groupLocalLfdis p

theorem eval_respondFailed (env : Answers) (w : World) (r : Ref) (d : Href) (f : DispatchFailure) :
    ∃ w', (respondOutcome r d (some f)).eval (World.oracle env) w = (some (), w') ∧
      Reports r [d] w w' := by
  let rejected := World.exec (.addRejected r d) w
  obtain ⟨_, w', posted, responded⟩ := eval_responds env
    (postResponseForDevices_within (rejected.record r).derc (responseCodeForDispatchError f) [d])
    (World.exec (.unregister d (rejected.record r).mrid) rejected)
  have record : rejected.record r =
      { w.record r with rejectedDevices := (w.record r).rejectedDevices.insert d } :=
    EventStore.object_update_self w.store r fun record =>
      { record with rejectedDevices := record.rejectedDevices.insert d }
  refine ⟨w', posted, ?_⟩
  obtain ⟨responses, posts, rfl⟩ := responded
  refine ⟨?_, ?_, fun e x => ?_, fun _ => rfl⟩
  · exact congrArg (·.mrid) record
  · exact congrArg (·.programHref) record
  · change (w.modes.unregister d (rejected.record r).mrid).modesOf e x = _
    rw [ActiveModeTracker.modesOf_unregister, record]
    simp

theorem final_report (env : Answers) (r : Ref) (ds : List Href) (f : DispatchFailure) (w : World) :
    Reports r ds w
      ((Co.forEach ds fun d => respondOutcome r d (some f)).final (World.oracle env) w) := by
  induction ds generalizing w with
  | nil => exact ⟨rfl, rfl, fun _ _ => by simp [Co.final, Co.forEach, Co.eval], fun _ => rfl⟩
  | cons d rest ih =>
      obtain ⟨w', ran, first⟩ := eval_respondFailed env w r d f
      have later := ih w'
      simp only [Co.final, Co.forEach, Co.eval_bind, ran] at later ⊢
      refine ⟨later.mrid.trans first.mrid, later.program.trans first.program, fun e x => ?_,
        fun p => (later.group p).trans (first.group p)⟩
      rw [later.modes, first.modes, first.mrid]
      by_cases own : x = (w.record r).mrid <;> by_cases here : e = d <;> by_cases there : e ∈ rest <;>
        simp [own, here, there]

/-- The opening of an exit leaves the registrations and whom the records are of. -/
theorem final_opening (exit : Exit) (mrid : Mrid) (p : Href) (w : World) :
    let w' := (exit.opening mrid p).final (World.oracle {}) w
    w'.modes = w.modes ∧ ∀ r, (w'.record r).mrid = (w.record r).mrid := by
  have within : Within (exit.opening mrid p) [.setState, .cancelTimers] [] True := by
    cases exit with
    | completion => exact (transition_within mrid .completed).widen (by decide) (by decide)
    | cancellation =>
        exact Within.bind ((transition_within mrid .cancelled).widen (by decide) (by decide))
          fun _ => Within.perform (by simp [Cmd.effect])
    | removal => exact cancelProgram_within p
  refine Co.eval_keeps (World.oracle {})
    (fun v : World => v.modes = w.modes ∧ ∀ r, (v.record r).mrid = (w.record r).mrid)
    (fun c v listed same => ?_) (fun _ _ waits => absurd waits List.not_mem_nil) within
    ⟨rfl, fun _ => rfl⟩
  cases c with
  | setState q st =>
      refine ⟨same.1, fun r => Eq.trans ?_ (same.2 r)⟩
      change ((v.store.update q fun record => { record with state := st }).object r).mrid =
        (v.store.object r).mrid
      by_cases own : r = q
      · rw [own, EventStore.object_update_self]
      · rw [EventStore.object_update_ne _ _ own]
  | cancelTimers => exact same
  | issue calls => exact absurd listed (issue_effect_notMem calls (by decide) (by decide))
  | _ => simp [Cmd.effect] at listed

/-- A running event can leave ACTIVE. -/
theorem Dispatch.step_leave (D : Dispatch) {s : Delivery} (exit : Exit) (running : s.stage = .running)
    (active : (s.world.record D.event).state = .active)
    (stored : s.world.store.get? (s.world.record D.event).mrid = some D.event) :
    D.delivery.step (.leave exit) s = some { s with
      world := (exit.opening (s.world.record D.event).mrid
        (s.world.record D.event).programHref).final (World.oracle {}) s.world
      stage := .leaving exit } := by
  simp only [Dispatch.delivery, running, active, stored, and_self, if_true]

/-- What holds until the fallback. -/
structure Dispatch.Running (D : Dispatch) (s : Delivery) : Prop where
  mrid : (s.world.record D.event).mrid = D.mrid
  registered : ∀ d, d ∉ D.targets → s.world.modes.modesOf d D.mrid = ∅
  rejected : s.reported = true → ∀ d ∈ D.answering, s.world.modes.modesOf d D.mrid = ∅
  pending : s.pending = []

variable {D : Dispatch} {s₀ s s' : Delivery}

theorem Dispatch.Begun.start (begun : D.Begun s) : D.Running s where
  mrid := begun.mrid
  registered := begun.registered
  rejected := fun reported => by
    rw [begun.unreported] at reported
    cases reported
  pending := begun.pending

theorem Delivery.isEarly_close (r : Ref) (exit : Exit) (s : Delivery) :
    (s.close r exit).stage.isEarly = false := by
  have fallen : (s.fallBack r).stage.isEarly = false := by
    unfold Delivery.fallBack
    dsimp only
    split <;> rfl
  cases exit with
  | completion => exact fallen
  | cancellation =>
      unfold Delivery.close
      dsimp only
      split
      · rfl
      · exact fallen
  | removal => rfl

theorem Dispatch.Running.step {h : Happening} (running : s.stage.isEarly = true → D.Running s)
    (stepped : D.delivery.step h s = some s') (others : D.Others s h s')
    (early : s'.stage.isEarly = true) : D.Running s' := by
  cases h with
  | apply fate =>
      simp only [Dispatch.delivery] at stepped
      split at stepped
      · cases stepped
      · cases stepped
        exact { running early with }
  | report f landed =>
      simp only [Dispatch.delivery] at stepped
      split at stepped
      · cases stepped
      · cases stepped
        have before := running early
        have reports := final_report { landed := landed } D.event D.answering f s.world
        refine ⟨reports.mrid.trans before.mrid, fun d outside => ?_, fun _ d member => ?_,
          before.pending⟩
        · rw [reports.modes, before.registered d outside, ite_self]
        · rw [reports.modes, if_pos ⟨member, before.mrid.symm⟩]
  | leave exit =>
      simp only [Dispatch.delivery] at stepped
      split at stepped
      · rename_i stage
        split at stepped
        · cases stepped
          have before := running (by rw [stage]; rfl)
          obtain ⟨modes, mrids⟩ := final_opening exit (s.world.record D.event).mrid
            (s.world.record D.event).programHref s.world
          refine ⟨(mrids _).trans before.mrid, ?_, ?_, before.pending⟩
          · rw [modes]
            exact before.registered
          · rw [modes]
            exact before.rejected
        · cases stepped
      · cases stepped
  | fall =>
      simp only [Dispatch.delivery] at stepped
      split at stepped
      · rename_i exit _
        cases stepped
        rw [s.isEarly_close D.event exit] at early
        cases early
      · cases stepped
  | withdraw =>
      simp only [Dispatch.delivery] at stepped
      split at stepped
      · cases stepped
        cases early
      · cases stepped
  | deliver =>
      simp only [Dispatch.delivery] at stepped
      split at stepped
      · cases stepped
      · rename_i call rest listed
        cases stepped
        rw [(running early).pending] at listed
        cases listed
  | others world effect =>
      cases stepped
      have before := running early
      have leaves : D.Leaves s.world world := by
        obtain ⟨-, kept⟩ := others
        cases stage : s.stage with
        | running | leaving => simpa only [stage] using kept
        | _ =>
            rw [stage] at early
            cases early
      refine ⟨leaves.mrid.trans before.mrid, fun d outside => ?_, fun reported d member => ?_,
        before.pending⟩
      · exact Finset.subset_empty.mp (before.registered d outside ▸ leaves.modes d)
      · exact Finset.subset_empty.mp (before.rejected reported d member ▸ leaves.modes d)

theorem Dispatch.Begun.running (begun : D.Begun s₀) (run : D.delivery.Run D.Others s₀ s)
    (early : s.stage.isEarly = true) : D.Running s :=
  run.keeps (P := fun s : Delivery => s.stage.isEarly = true → D.Running s)
    (fun _ _ _ stepped others still => Running.step still stepped others)
    (fun _ => begun.start) early

/-- Reported as rejected, the event is withdrawn from nothing behind the target. -/
theorem Dispatch.Running.not_withdraws (running : D.Running s) (reported : s.reported = true)
    (m : Mode) : ¬ s.world.Withdraws D.event D.target m := by
  refine Py20305.not_withdraws fun d behind => ?_
  rw [running.mrid]
  by_cases sent : d ∈ D.targets
  · refine running.rejected reported d ?_
    unfold Dispatch.answering
    rcases behind with ⟨l, local_⟩ | own
    · rw [local_]
      exact sent
    · rw [own]
      exact List.mem_singleton.mpr rfl
  · exact running.registered d sent

/-! ### After the event has ended -/

/-- Only a control is written as its event. -/
theorem writes_ne_event {call : Call} (other : call.isControl = false) (t : Target) (m : Mode)
    (x : Mrid) : call.writes t m ≠ some (.event x) := by
  cases call with
  | control => cases other
  | _ =>
      simp only [Call.writes]
      split <;> simp

/-- The withdrawal that waits for the defaults. -/
def Dispatch.toWithdraw (D : Dispatch) (s : Delivery) : List Call :=
  match s.stage with
  | .falling devices plan => s.world.withdrawCalls D.event devices plan
  | _ => []

/-- What the event's end has still to send. -/
def Dispatch.left (D : Dispatch) (s : Delivery) : List Call := s.pending ++ D.toWithdraw s

theorem Dispatch.Stands.withdrawCalls {w w' : World} (stands : D.Stands w w')
    (devices : List Href) (plan : FallbackPlan) :
    w'.withdrawCalls D.event devices plan = w.withdrawCalls D.event devices plan := by
  have covered : ∀ d, w'.modes.covered d (w.record D.event).mrid =
      w.modes.covered d (w.record D.event).mrid := by
    intro d
    ext m
    rw [ActiveModeTracker.mem_covered, ActiveModeTracker.mem_covered]
    refine exists_congr fun q => and_congr_right fun other => ?_
    rw [stands.others d q other]
  unfold Core.withdrawCalls
  simp only [stands.mrid, stands.program, stands.group, covered]

theorem Reports.stands {ds : List Href} {w w' : World} (reports : Reports D.event ds w w') :
    D.Stands w w' where
  mrid := reports.mrid
  program := reports.program
  group := reports.group _
  others d q other := by rw [reports.modes, if_neg fun both => other both.2]

/-- The two sendings of the fallback are all it sends. -/
theorem Dispatch.left_fallBack (D : Dispatch) (pending : s.pending = []) :
    D.left (s.fallBack D.event) = s.world.endCalls D.event := by
  unfold Delivery.fallBack Core.endCalls
  by_cases none_ : s.world.fallbackNeeds D.event = []
  · simp [Dispatch.left, Dispatch.toWithdraw, none_, pending]
  · have clears : (s.world.unregistered D.event).plannedClears D.event
        (s.world.planOf D.event false) = [] := by
      unfold Core.plannedClears Core.planOf
      rw [if_pos (fallbackPlan_eq _ _ _ _).2.2.1]
    simp only [none_, if_false]
    unfold Core.fallbackCalls
    dsimp only
    rw [show (s.world.toCore.unregistered D.event).plannedClears D.event
      (s.world.planOf D.event false) = [] from clears, List.append_nil]
    rfl

/-- The end of an event sends the calls its task does undisturbed. -/
theorem Dispatch.left_close (D : Dispatch) {s : Delivery} (pending : s.pending = []) (exit : Exit) :
    D.left (s.close D.event exit) = exit.calls s.world D.event := by
  cases exit with
  | completion => exact D.left_fallBack pending
  | cancellation =>
      unfold Delivery.close Exit.calls
      dsimp only
      split
      · simp [Dispatch.left, Dispatch.toWithdraw, pending]
      · exact D.left_fallBack pending
  | removal => simp [Delivery.close, Dispatch.left, Dispatch.toWithdraw, pending, Exit.calls]

/-- The steps of an exit send what its task, undisturbed, issues. -/
theorem Dispatch.task_issues (D : Dispatch) (env : Answers) (exit : Exit)
    (running : s.stage = .running) (pending : s.pending = [])
    (active : (s.world.record D.event).state = .active)
    (stored : s.world.store.get? (s.world.record D.event).mrid = some D.event)
    (named : s.world.discovered.Named) :
    ∃ s' log, D.delivery.step (.leave exit) s = some s' ∧
      ((exit.body D.event (s.world.record D.event).programHref).final
        (World.oracle env) s.world).issued = s.world.issued ++ log ∧
      log.map (·.call) = D.left (s'.close D.event exit) := by
  obtain ⟨log, issued, calls⟩ := issued_exit env exit active stored named
  refine ⟨_, log, D.step_leave exit running active stored, issued, calls.trans ?_⟩
  exact (D.left_close (s := { s with world := _, stage := .leaving exit }) pending exit).symm

theorem Delivery.effect_close (r : Ref) (exit : Exit) (s : Delivery) :
    (s.close r exit).effect = s.effect ∧ (s.close r exit).applying = s.applying := by
  have fallen : (s.fallBack r).effect = s.effect ∧ (s.fallBack r).applying = s.applying := by
    unfold Delivery.fallBack
    dsimp only
    split <;> exact ⟨rfl, rfl⟩
  cases exit with
  | completion => exact fallen
  | cancellation =>
      unfold Delivery.close
      dsimp only
      split
      · exact ⟨rfl, rfl⟩
      · exact fallen
  | removal => exact ⟨rfl, rfl⟩

theorem isControl_of_mem_calls {exit : Exit} {w : World} {r : Ref} {call : Call}
    (listed : call ∈ exit.calls w r) : call.isControl = false := by
  cases exit with
  | completion => exact endCalls_isControl listed
  | cancellation =>
      simp only [Exit.calls] at listed
      split at listed
      · exact absurd listed List.not_mem_nil
      · exact endCalls_isControl listed
  | removal => exact absurd listed List.not_mem_nil

/-- The end writes what it releases. -/
theorem Dispatch.Running.calls_write_iff (running : D.Running s) (exit : Exit) (m : Mode) :
    (∃ call ∈ exit.calls s.world D.event, (call.writes D.target m).isSome = true) ↔
      D.Releases s exit m := by
  have ends : (∃ call ∈ s.world.endCalls D.event, (call.writes D.target m).isSome = true) ↔
      D.Ends s m := by
    rw [fallback_writes_iff]
    unfold Dispatch.Ends
    cases reported : s.reported with
    | false => simp
    | true => simp [running.not_withdraws reported m]
  cases exit with
  | completion => exact ends
  | cancellation =>
      simp only [Exit.calls, Dispatch.Releases]
      split
      · rename_i wind
        simp [not_le.mpr wind]
      · rename_i prompt
        rw [ends]
        simp [not_lt.mp prompt]
  | removal => simp [Exit.calls, Dispatch.Releases]

/-- Nothing the event wrote stays: what is in effect is still to be written over, and nothing
that would stay is still to be written. -/
structure Dispatch.Cleared (D : Dispatch) (s : Delivery) : Prop where
  late : s.stage.isEarly = false
  effect : ∀ m, m.isWithdrawable = true → s.effect m = some (.event D.mrid) →
    ∃ call ∈ D.left s, (call.writes D.target m).isSome = true
  todo : s.applying.outcome = none → ∀ m ∈ s.applying.todo, m.isWithdrawable = false
  calls : ∀ call ∈ D.left s, call.isControl = false

/-- What is left to send stays where neither the stage nor what is pending changes. -/
theorem Dispatch.left_eq {t : Delivery} (stage : t.stage = s.stage) (pending : t.pending = s.pending)
    (stands : ∀ devices plan, s.stage = .falling devices plan → D.Stands s.world t.world) :
    D.left t = D.left s := by
  unfold Dispatch.left Dispatch.toWithdraw
  rw [stage, pending]
  congr 1
  cases now : s.stage with
  | falling devices plan => exact (stands devices plan now).withdrawCalls devices plan
  | _ => rfl

theorem Dispatch.Cleared.apply {fate : Connectors.Fate} (cleared : D.Cleared s)
    (stepped : D.delivery.step (.apply fate) s = some s') : D.Cleared s' := by
  simp only [Dispatch.delivery] at stepped
  split at stepped
  · cases stepped
  · rename_i open_
    have going : s.applying.outcome = none := by simpa using open_
    cases stepped
    refine ⟨cleared.late, fun m withdrawable mine => ?_, fun _ m left =>
      cleared.todo going m (s.applying.todo_next_subset fate left), cleared.calls⟩
    cases wrote : s.applying.written fate with
    | none =>
        simp only [wrote] at mine
        exact cleared.effect m withdrawable mine
    | some m' =>
        simp only [wrote] at mine
        by_cases same : m = m'
        · have kept := cleared.todo going m' (Applying.mem_todo_of_written wrote)
          rw [← same, withdrawable] at kept
          cases kept
        · rw [Function.update_of_ne same] at mine
          exact cleared.effect m withdrawable mine

theorem Dispatch.Cleared.report {f : DispatchFailure} {landed : ResponseKey → Bool}
    (cleared : D.Cleared s) (stepped : D.delivery.step (.report f landed) s = some s') :
    D.Cleared s' := by
  simp only [Dispatch.delivery] at stepped
  split at stepped
  · cases stepped
  · cases stepped
    have reports := final_report { landed := landed } D.event D.answering f s.world
    have left : D.left { s with
        world := (Co.forEach D.answering fun d => respondOutcome D.event d (some f)).final
          (World.oracle { landed := landed }) s.world
        reported := true } = D.left s := Dispatch.left_eq rfl rfl fun _ _ _ => reports.stands
    refine ⟨cleared.late, ?_, cleared.todo, ?_⟩
    · rw [left]
      exact cleared.effect
    · rw [left]
      exact cleared.calls

theorem Dispatch.Cleared.withdraw (cleared : D.Cleared s)
    (stepped : D.delivery.step .withdraw s = some s') : D.Cleared s' := by
  simp only [Dispatch.delivery] at stepped
  split at stepped
  · rename_i devices plan stage pending
    cases stepped
    have left : D.left s = s.world.withdrawCalls D.event devices plan ++ [] := by
      simp [Dispatch.left, Dispatch.toWithdraw, stage, pending]
    obtain ⟨-, effect, todo, calls⟩ := cleared
    rw [left] at effect calls
    exact ⟨rfl, effect, todo, calls⟩
  · cases stepped

theorem Dispatch.Cleared.deliver (cleared : D.Cleared s)
    (stepped : D.delivery.step .deliver s = some s') : D.Cleared s' := by
  simp only [Dispatch.delivery] at stepped
  split at stepped
  · cases stepped
  · rename_i call rest listed
    cases stepped
    have first : D.left s = call :: (rest ++ D.toWithdraw s) := by
      rw [Dispatch.left, listed, List.cons_append]
    have other := cleared.calls call (by rw [first]; exact List.mem_cons_self)
    refine ⟨cleared.late, fun m withdrawable mine => ?_, cleared.todo, fun c member =>
      cleared.calls c (by rw [first]; exact List.mem_cons_of_mem call member)⟩
    cases wrote : call.writes D.target m with
    | some writer =>
        simp only [wrote, Option.some_or] at mine
        exact absurd (wrote.trans mine) (writes_ne_event other _ _ _)
    | none =>
        simp only [wrote, Option.none_or] at mine
        obtain ⟨c, member, writes⟩ := cleared.effect m withdrawable mine
        rw [first] at member
        rcases List.mem_cons.mp member with rfl | later
        · simp [wrote] at writes
        · exact ⟨c, later, writes⟩

theorem Dispatch.Cleared.step {h : Happening} (cleared : D.Cleared s)
    (stepped : D.delivery.step h s = some s') (others : D.Others s h s') : D.Cleared s' := by
  cases h with
  | apply fate => exact cleared.apply stepped
  | report f landed => exact cleared.report stepped
  | leave exit =>
      simp only [Dispatch.delivery] at stepped
      split at stepped
      · rename_i stage
        have late := cleared.late
        rw [stage] at late
        cases late
      · cases stepped
  | fall =>
      simp only [Dispatch.delivery] at stepped
      split at stepped
      · rename_i exit stage
        have late := cleared.late
        rw [stage] at late
        cases late
      · cases stepped
  | withdraw => exact cleared.withdraw stepped
  | deliver => exact cleared.deliver stepped
  | others world effect =>
      cases stepped
      obtain ⟨apart, kept⟩ := others
      have stands : ∀ devices plan, s.stage = .falling devices plan → D.Stands s.world world := by
        intro devices plan stage
        simpa only [stage] using kept
      have left : D.left { s with world := world, effect := effect } = D.left s :=
        Dispatch.left_eq rfl rfl stands
      refine ⟨cleared.late, ?_, cleared.todo, ?_⟩
      · rw [left]
        exact fun m withdrawable mine => cleared.effect m withdrawable (apart m mine)
      · rw [left]
        exact cleared.calls

theorem Dispatch.Cleared.keepsNone (cleared : D.Cleared s) : D.KeepsNone s := by
  intro s' run settled m withdrawable mine
  have last : D.Cleared s' :=
    run.keeps (fun _ _ _ stepped others still => still.step stepped others) cleared
  obtain ⟨-, pending, finished⟩ := settled
  obtain ⟨call, listed, -⟩ := last.effect m withdrawable mine
  have none_left : D.left s' = [] := by
    unfold Dispatch.left Dispatch.toWithdraw
    cases stage : s'.stage with
    | finished => rw [pending]; rfl
    | _ =>
        rw [stage] at finished
        cases finished
  rw [none_left] at listed
  exact absurd listed List.not_mem_nil

theorem Dispatch.start (D : Dispatch) (s : Delivery) : D.delivery.Run D.Others s s := .refl _

/-- The calls that are pending, made one after the other, leave the modes none of them writes. -/
theorem run_deliver (s : Delivery) :
    ∃ s', D.delivery.Run D.Others s s' ∧ s'.pending = [] ∧ s'.applying = s.applying ∧
      s'.stage = s.stage ∧ s'.world = s.world ∧
      ∀ m, (∀ call ∈ s.pending, call.writes D.target m = none) → s'.effect m = s.effect m := by
  generalize listed : s.pending = calls
  induction calls generalizing s with
  | nil => exact ⟨s, D.start s, listed, rfl, rfl, rfl, fun _ _ => rfl⟩
  | cons call rest ih =>
      let next : Delivery := { s with
        pending := rest
        effect := fun m => (call.writes D.target m).or (s.effect m) }
      have stepped : D.delivery.step .deliver s = some next := by
        simp only [Dispatch.delivery, listed, next]
      obtain ⟨s', run, pending, applying, stage, world, effect⟩ := ih next rfl
      refine ⟨s', (Machine.Run.step _ (D.start s) stepped trivial).trans run, pending, applying,
        stage, world, fun m unwritten => ?_⟩
      rw [effect m fun c member => unwritten c (List.mem_cons_of_mem call member)]
      simp only [next, unwritten call List.mem_cons_self, Option.none_or]

/-- The event's end can go on to its last call, and leaves the modes no call of it writes. -/
theorem run_end (s : Delivery) (late : s.stage.isEarly = false) :
    ∃ s', D.delivery.Run D.Others s s' ∧ s'.pending = [] ∧ s'.stage.isFinished = true ∧
      s'.applying = s.applying ∧
      ∀ m, (∀ call ∈ D.left s, call.writes D.target m = none) → s'.effect m = s.effect m := by
  obtain ⟨s₁, delivered, pending, applying, stage, world, effect⟩ := run_deliver (D := D) s
  have first : ∀ m, (∀ call ∈ D.left s, call.writes D.target m = none) →
      s₁.effect m = s.effect m :=
    fun m unwritten => effect m fun call member => unwritten call (List.mem_append_left _ member)
  cases now : s.stage with
  | running | leaving =>
      rw [now] at late
      cases late
  | finished => exact ⟨s₁, delivered, pending, by rw [stage, now]; rfl, applying, first⟩
  | falling devices plan =>
      let calls := s₁.world.withdrawCalls D.event devices plan
      let next : Delivery := { s₁ with
        world := World.exec (.issue calls) s₁.world, stage := .finished, pending := calls }
      have stepped : D.delivery.step .withdraw s₁ = some next := by
        simp only [Dispatch.delivery, stage.trans now, pending, calls, next]
      obtain ⟨s₂, withdrawn, pending₂, applying₂, stage₂, -, effect₂⟩ := run_deliver (D := D) next
      refine ⟨s₂, (Machine.Run.step _ delivered stepped trivial).trans withdrawn, pending₂,
        by rw [stage₂]; rfl, applying₂.trans applying, fun m unwritten => ?_⟩
      refine (effect₂ m fun call member => unwritten call ?_).trans (first m unwritten)
      refine List.mem_append_right _ ?_
      simp only [Dispatch.toWithdraw, now]
      exact world ▸ member

/-- A dispatch that goes on can fail at once. -/
theorem run_fail (s : Delivery) :
    ∃ s', D.delivery.Run D.Others s s' ∧ s'.applying.outcome.isSome = true ∧
      s'.pending = s.pending ∧ s'.stage = s.stage ∧ s'.effect = s.effect := by
  by_cases settled : s.applying.outcome.isSome = true
  · exact ⟨s, D.start s, settled, rfl, rfl, rfl⟩
  · have stepped : D.delivery.step (.apply (.failed .other)) s =
        some { s with applying := s.applying.next (.failed .other) } := by
      simp [Dispatch.delivery, settled, Applying.written]
    exact ⟨_, .step _ (D.start s) stepped trivial, s.applying.settled_next_failed .other, rfl, rfl,
      rfl⟩

/-- It can write any mode it still has to write. -/
theorem run_write (s : Delivery) {m : Mode} (going : s.applying.outcome = none)
    (left : m ∈ s.applying.todo) :
    ∃ s', D.delivery.Run D.Others s s' ∧ s'.pending = s.pending ∧ s'.stage = s.stage ∧
      s'.effect m = some (.event D.mrid) := by
  generalize listed : s.applying.todo = modes at left
  induction modes generalizing s with
  | nil => exact absurd left List.not_mem_nil
  | cons first rest ih =>
      rcases List.mem_cons.mp left with rfl | later
      · have stepped : D.delivery.step (.apply .applied) s = some { s with
            applying := s.applying.next .applied
            effect := Function.update s.effect m (some (.event D.mrid)) } := by
          simp [Dispatch.delivery, going, Applying.written, listed]
        exact ⟨_, .step _ (D.start s) stepped trivial, rfl, rfl, Function.update_self ..⟩
      · let next : Delivery := { s with applying := s.applying.next .unsupported }
        have stepped : D.delivery.step (.apply .unsupported) s = some next := by
          simp [Dispatch.delivery, going, Applying.written, next]
        obtain ⟨s', run, pending, stage, effect⟩ := ih next
          (by simp [next, Applying.next, listed, going]) (by simp [next, Applying.next, listed]) later
        exact ⟨s', (Machine.Run.step _ (D.start s) stepped trivial).trans run, pending, stage,
          effect⟩

/-- An event of which a dispatch failed or was rejected leaves nothing of itself on the target,
whatever happens from its fallback on, if and only if its end, as it is when the responses are
posted, writes all it has in effect there and nothing is left to be written that an event's end
does not keep. -/
theorem rejected_keeps_none_iff (D : Dispatch) {s₀ s : Delivery} (begun : D.Begun s₀)
    (run : D.delivery.Run D.Others s₀ s) {exit : Exit} (leaving : s.stage = .leaving exit) :
    D.KeepsNone (s.close D.event exit) ↔
      (∀ m, m.isWithdrawable = true → s.effect m = some (.event D.mrid) → D.Releases s exit m) ∧
        (s.applying.outcome = none → ∀ m ∈ s.applying.todo, m.isWithdrawable = false) := by
  have running := begun.running run (by rw [leaving]; rfl)
  have left := D.left_close running.pending exit
  have late := s.isEarly_close D.event exit
  obtain ⟨effect, applying⟩ := s.effect_close D.event exit
  obtain ⟨s₁, ended, pending₁, finished₁, applying₁, effect₁⟩ :=
    run_end (D := D) (s.close D.event exit) late
  constructor
  · intro keeps
    refine ⟨fun m withdrawable mine => ?_, fun going m todo => ?_⟩
    · by_contra unreleased
      have unwritten : ∀ call ∈ D.left (s.close D.event exit), call.writes D.target m = none := by
        intro call listed
        rw [left] at listed
        by_contra writes
        exact unreleased ((running.calls_write_iff exit m).mp
          ⟨call, listed, Option.isSome_iff_ne_none.mpr writes⟩)
      obtain ⟨s₂, failed, settled, pending₂, stage₂, effect₂⟩ := run_fail (D := D) s₁
      refine keeps s₂ (ended.trans failed) ⟨settled, pending₂.trans pending₁, stage₂ ▸ finished₁⟩
        m withdrawable ?_
      rw [effect₂, effect₁ m unwritten, effect]
      exact mine
    · by_contra withdrawable
      rw [Bool.not_eq_false] at withdrawable
      -- First the calls of the end, then the late write.
      have same : s₁.applying = s.applying := applying₁.trans applying
      obtain ⟨s₂, wrote, pending₂, stage₂, effect₂⟩ :=
        run_write (D := D) s₁ (same ▸ going) (same ▸ todo)
      obtain ⟨s₃, failed, settled, pending₃, stage₃, effect₃⟩ := run_fail (D := D) s₂
      refine keeps s₃ ((ended.trans wrote).trans failed)
        ⟨settled, pending₃.trans (pending₂.trans pending₁), stage₃ ▸ stage₂ ▸ finished₁⟩
        m withdrawable ?_
      rw [effect₃]
      exact effect₂
  · rintro ⟨released, kept⟩
    refine Dispatch.Cleared.keepsNone ⟨late, fun m withdrawable mine => ?_, ?_, ?_⟩
    · rw [left]
      rw [effect] at mine
      exact (running.calls_write_iff exit m).mpr (released m withdrawable mine)
    · rw [applying]
      exact kept
    · rw [left]
      exact fun call listed => isControl_of_mem_calls listed

/-! ### Two dispatches -/

/-- An event with a fixed and a maximum output, on its way to the one device of its program. -/
def twoModes : Dispatch where
  event := 0
  mrid := 1
  base := ⟨{.opModFixedW, .opModMaxLimW}⟩
  targets := ["/edev/1"]
  target := .href "/edev/1"

/-- Its program, whose default sets the given modes, if it has one. -/
def twoModesCore (modes : Option (Finset Mode)) : Core :=
  plainCore
    [{ plainProgram "/derp/1" 1 [{ plainControl 1 0 1000 .opModFixedW with base := twoModes.base }]
      with defaultDercontrol := modes.map fun set_ => ⟨9, ⟨set_⟩⟩ }]
    [("/derp/1", "/edev/1")]

/-- The poll that meets the event, up to its dispatch. -/
def twoModesLabels : List (Label processor) :=
  [.start 1 (.processControls "/derp/1" 0), .resume 1 Request.success,
    .start 2 (.dispatchAndReport 0 "/edev/1")]

def twoModesSent (modes : Option (Finset Mode)) : Delivery where
  world := ((processor.exec (Py20305.start (twoModesCore modes)) twoModesLabels).getD
    (Py20305.start (twoModesCore modes))).state
  effect := fun _ => none
  applying := ⟨translateControls twoModes.base, false, none⟩

theorem twoModes_begun {modes : Option (Finset Mode)}
    (event : ((twoModesSent modes).world.record 0).mrid = 1 ∧
      ((twoModesSent modes).world.record 0).state = .active)
    (devices : (twoModesSent modes).world.modes.registry.keys = ["/edev/1"]) :
    twoModes.Begun (twoModesSent modes) := by
  refine ⟨event.1, event.2, fun d outside => ?_, rfl, rfl, rfl, rfl⟩
  by_contra some_
  have listed := ActiveModeTracker.mem_keys_of_modesOf some_
  rw [devices] at listed
  exact outside listed

/-- The first mode is written, the second fails, and the device is reported. -/
def halfWritten : List Happening :=
  [.apply .applied, .apply (.failed .offlineTransient), .report .offlineTransient fun _ => true]

/-- The device is reported at the deadline, with nothing written yet. -/
def deadlinePassed : List Happening := [.report .timeout fun _ => true]

/-- The event is cancelled with a mode written, and the failure of the second is reported while
the response is posted. -/
def reportedBetween : List Happening :=
  [.apply .applied, .leave .cancellation, .apply (.failed .offlineTransient),
    .report .offlineTransient fun _ => true]

theorem Dispatch.run_of_own {D : Dispatch} {s s' : Delivery} {hs : List Happening}
    (own : ∀ h ∈ hs, h.isOthers = false) (executed : D.delivery.exec s hs = some s') :
    D.delivery.Run D.Others s s' :=
  (Machine.run_of_labels hs executed own).weaken fun own => D.others_of_own _ _ own

/-- The way of a dispatch to the end of its event, after which the target keeps something. -/
structure Dispatch.Strands (D : Dispatch) (s₀ : Delivery) (hs : List Happening) (exit : Exit) :
    Prop where
  begun : D.Begun s₀
  keeps : ∃ s, D.delivery.exec s₀ hs = some s ∧ D.delivery.Run D.Others s₀ s ∧
    s.stage = .leaving exit ∧ s.reported = true ∧ ¬ D.KeepsNone (s.close D.event exit)

/-- By which exit the event is leaving, if it is. -/
def Stage.exit? : Stage → Option Exit
  | leaving exit => some exit
  | _ => none

theorem Stage.leaving_of_exit? {stage : Stage} {exit : Exit} (left : stage.exit? = some exit) :
    stage = .leaving exit := by
  cases stage with
  | leaving e => rw [Option.some.inj left]
  | _ => cases left

/-- It keeps something if, its end at work, the dispatch's own happenings lead on to a mode in
effect when all has settled. -/
theorem Dispatch.strands_of_exec {D : Dispatch} {s₀ : Delivery} {hs : List Happening} {exit : Exit}
    (rest : List Happening) (m : Mode) (begun : D.Begun s₀)
    (own : ∀ h ∈ hs ++ rest, h.isOthers = false) (withdrawable : m.isWithdrawable = true)
    (ends : ((D.delivery.exec s₀ hs).bind fun s =>
      if s.stage.exit? = some exit ∧ s.reported = true then
        D.delivery.exec (s.close D.event exit) rest
      else none).any (fun s' : Delivery => decide s'.Settled &&
        decide (s'.effect m = some (.event D.mrid))) = true) :
    D.Strands s₀ hs exit := by
  obtain ⟨s', reached, good⟩ := (Option.any_eq_true _ _).mp ends
  obtain ⟨s, executed, later⟩ := Option.bind_eq_some_iff.mp reached
  split at later
  · rename_i there
    rw [Bool.and_eq_true, decide_eq_true_iff, decide_eq_true_iff] at good
    obtain ⟨settled, mine⟩ := good
    refine ⟨begun, s, executed, run_of_own (fun h member => own h (List.mem_append_left _ member))
      executed, Stage.leaving_of_exit? there.1, there.2, fun keeps => ?_⟩
    exact keeps s' (run_of_own (fun h member => own h (List.mem_append_right _ member)) later)
      settled m withdrawable mine
  · cases later

/-- A fixed output that was written before the dispatch failed, or is written after it was
reported at its deadline, stays on the device when the event completes; and so it does where the
failure is reported between a cancellation and its fallback. -/
theorem rejection_leaves :
    twoModes.Strands (twoModesSent none) (halfWritten ++ [.leave .completion]) .completion ∧
      twoModes.Strands (twoModesSent none) (deadlinePassed ++ [.leave .completion]) .completion ∧
      twoModes.Strands (twoModesSent none) reportedBetween .cancellation := by
  have begun : twoModes.Begun (twoModesSent none) :=
    twoModes_begun (by decide +kernel) (by decide +kernel)
  refine ⟨?_, ?_, ?_⟩
  · exact Dispatch.strands_of_exec [.withdraw] .opModFixedW begun (by decide) rfl (by decide +kernel)
  · -- The apply goes on: both modes are written after the event's end.
    exact Dispatch.strands_of_exec [.withdraw, .apply .applied, .apply .applied, .apply .applied]
      .opModFixedW begun (by decide) rfl (by decide +kernel)
  · exact Dispatch.strands_of_exec [.withdraw] .opModFixedW begun (by decide) rfl (by decide +kernel)

/-- With a default that names both modes, nothing stays of them. -/
theorem rejection_leaves_not :
    ∃ s, twoModes.delivery.Run twoModes.Others
        (twoModesSent (some {.opModFixedW, .opModMaxLimW})) s ∧
      s.stage = .leaving .completion ∧ s.reported = true ∧
      s.effect .opModFixedW = some (.event 1) ∧ twoModes.KeepsNone (s.close 0 .completion) := by
  let s₁ := (twoModes.delivery.exec
    (twoModesSent (some {.opModFixedW, .opModMaxLimW})) halfWritten).get (by decide +kernel)
  have executed : twoModes.delivery.exec
      (twoModesSent (some {.opModFixedW, .opModMaxLimW})) halfWritten = some s₁ :=
    (Option.some_get _).symm
  have begun : twoModes.Begun (twoModesSent (some {.opModFixedW, .opModMaxLimW})) :=
    twoModes_begun (by decide +kernel) (by decide +kernel)
  have effect : s₁.effect = Function.update (fun _ => none) .opModFixedW (some (.event 1)) := rfl
  have written : ∀ m, s₁.effect m = some (.event 1) → m = .opModFixedW := by
    intro m mine
    by_contra other
    rw [effect, Function.update_of_ne other] at mine
    cases mine
  have stepped := twoModes.step_leave (s := s₁) .completion rfl (by decide +kernel)
    (by decide +kernel)
  have run := (Dispatch.run_of_own (by decide) executed).step _ stepped trivial
  refine ⟨_, run, rfl, by decide +kernel, by decide +kernel, ?_⟩
  refine (rejected_keeps_none_iff twoModes begun run rfl).mpr
    ⟨fun m _ mine => ?_, fun going => absurd going (by decide +kernel)⟩
  rw [written m mine]
  have running : twoModes.Running _ := begun.running run rfl
  exact (running.calls_write_iff .completion .opModFixedW).mp (by decide +kernel)

end Py20305.Rejection
