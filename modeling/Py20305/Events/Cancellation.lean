import Py20305.Events.Devices
import Py20305.Events.Effects

/-!
The server's cancellation of a running event, and what it leaves behind.

An event with randomization is marked CANCELLED and its fallback scheduled for
later; the timer that should run it skips records that have ended. The fallback
never runs, and the task table keeps the timer's entry, so the initial default
stays held back (`windDown_never_releases`). A timer task that calls the
fallback and takes its entry out of the table would release
(`windDownTask_releases`).
-/

namespace Py20305

open Coroutine Co

/-! ### Posting responses alone -/

/-- `w'` is `w` but for what is known about responses. -/
def Responded (w w' : World) : Prop :=
  ∃ responses posted, w' = { w with responses := responses, posted := posted }

theorem Responded.refl (w : World) : Responded w w := ⟨w.responses, w.posted, rfl⟩

theorem Responded.store {w w' : World} (h : Responded w w') : w'.store = w.store := by
  obtain ⟨_, _, rfl⟩ := h
  rfl

theorem Responded.timers {w w' : World} (h : Responded w w') : w'.timers = w.timers := by
  obtain ⟨_, _, rfl⟩ := h
  rfl

theorem Responded.modes {w w' : World} (h : Responded w w') : w'.modes = w.modes := by
  obtain ⟨_, _, rfl⟩ := h
  rfl

theorem Responded.issued {w w' : World} (h : Responded w w') : w'.issued = w.issued := by
  obtain ⟨_, _, rfl⟩ := h
  rfl

theorem responded_exec {w w' : World} {c : Cmd} (claims : c.effect ∈ [Effect.claim])
    (h : Responded w w') : Responded w (World.exec c w') := by
  obtain ⟨responses, posted, rfl⟩ := h
  cases c with
  | claim key => exact ⟨_, _, rfl⟩
  | issue calls => exact absurd claims (issue_effect_notMem calls (by decide) (by decide))
  | _ => simp [Cmd.effect] at claims

theorem responded_answered {w w' : World} {r : Request} (a : r.Answer)
    (waits : r.kind ∈ responseWaits) (h : Responded w w') : Responded w (w'.answered r a) := by
  obtain ⟨responses, posted, rfl⟩ := h
  unfold World.answered World.reply
  split
  · exact ⟨_, _, rfl⟩
  · cases r <;> simp [Request.kind] at waits
    · exact ⟨_, _, rfl⟩
    · simp only [Core.reply]
      split
      · split <;> exact ⟨_, _, rfl⟩
      · split
        · exact ⟨_, _, rfl⟩
        · split <;> exact ⟨_, _, rfl⟩
    · exact ⟨_, _, rfl⟩

theorem responded_oracle (env : Answers) {w w' : World} {r : Request}
    (waits : r.kind ∈ responseWaits) (h : Responded w w') :
    Responded w (World.oracle env r w').2 := by
  cases r <;> simp only [Request.kind, List.mem_cons, reduceCtorEq, or_self, List.not_mem_nil,
    or_false] at waits <;> exact responded_answered _ (by simp [Request.kind]) h

/-- A coroutine that only posts responses returns, and leaves everything else
as it is. -/
theorem eval_responds {α : Type} (env : Answers) {m : Proc α}
    (within : Within m [.claim] responseWaits) (w : World) :
    ∃ a w', m.eval (World.oracle env) w = (some a, w') ∧ Responded w w' := by
  obtain ⟨a, returned⟩ := Co.eval_returns (World.oracle env) within w
  have kept := Co.eval_keeps (World.oracle env) (Responded w)
    (fun c w' claims h => responded_exec claims h)
    (fun r w' waits h => responded_oracle env waits h) within (Responded.refl w)
  exact ⟨a, _, Prod.ext returned rfl, kept⟩

/-! ### Cancellation with a wind-down -/

/-- The state after `_handle_cancellation` of `r`. -/
def cancelledWorld (env : Answers) (w : World) (r : Ref) : World :=
  (handleCancellation r).final (World.oracle env) w

/-- That state at later clocks, the processor not shut down. -/
def afterWindDown (env : Answers) (w : World) (r : Ref) (clock : Option Href → Int) (now : Int) :
    World :=
  { cancelledWorld env w r with clock := clock, localClock := now }

/-- What the fallback on a record makes of the state: the registrations, the
calls to the dispatcher and the defaults remembered. -/
def FellBack (env : Answers) (r : Ref) (before after : World) : Prop :=
  let fallen := (applyDdercFallback r false).final (World.oracle env) before
  after.modes = fallen.modes ∧ after.issued = fallen.issued ∧ after.dderc = fallen.dderc

/-- What the wind-down is there for, `task` being what its timer runs: the timer
is set, and whenever the wind-down is over its task makes of the state what the
fallback does, and leaves the event no longer pending. -/
def WindDownReleases (task : Ref → Proc Unit) (env : Answers) (w : World) (r : Ref) : Prop :=
  ∃ pid t, (cancelledWorld env w r).sleeping.get? pid = some t ∧ t.ref = r ∧
    t.callback = .windDown ∧
    ∀ clock now, t.target ≤ now →
      ∃ begun, (afterWindDown env w r clock now).begins pid (.timer .windDown r) = some begun ∧
        FellBack env r begun ((task r).final (World.oracle env) begun) ∧
        ((task r).final (World.oracle env) begun).hasPending (w.record r).mrid = false

/-- A timer of a record that has ended runs nothing. -/
theorem fireTimer_of_terminal (callback : Callback) (o : Oracle ProcSig) {r : Ref} {w : World}
    (ended : (w.record r).state.isTerminal = true) :
    (fireTimer callback r).final o w = w := by
  have stops : (fireTimer callback r).eval o w = (pure () : Proc Unit).eval o w := by
    change Co.eval o (if (w.record r).state.isTerminal = true then pure () else _) w = _
    rw [if_pos ended]
  simp only [Co.final, stops]
  rfl

/-- The first steps of `_handle_cancellation`: the record is CANCELLED and its
timers are gone. -/
def endedWorld (w : World) (r : Ref) : World :=
  World.exec (.cancelTimers (w.record r).mrid) (World.exec (.setState r .cancelled) w)

theorem endedWorld_record (w : World) (r : Ref) :
    (endedWorld w r).record r = { w.record r with state := .cancelled } := by
  simp [endedWorld, World.exec, Core.exec, Core.cancelTimers, Core.endTasks, Core.withRecord,
    Core.record]

/-- `_handle_cancellation` of a running event with a positive wind-down: the
first steps, the responses, and a timer for later. -/
theorem cancelledWorld_eq (env : Answers) {w : World} {r : Ref}
    (running : (w.record r).state = .active)
    (stored : w.store.get? (w.record r).mrid = some r)
    (randomized : 0 < cancellationWindDown (w.record r)) :
    ∃ w₂, Responded (endedWorld w r) w₂ ∧
      cancelledWorld env w r = World.exec
        (.schedule ⟨r, .windDown, w₂.localClock + cancellationWindDown (w₂.record r), none⟩) w₂ := by
  obtain ⟨_, w₂, posted, answered⟩ :=
    eval_responds env (postStartedDeviceLifecycle_within r .cancelled) (endedWorld w r)
  refine ⟨w₂, answered, ?_⟩
  have wind : 0 < cancellationWindDown (w₂.record r) := by
    unfold Core.record
    rw [answered.store]
    change 0 < cancellationWindDown ((endedWorld w r).record r)
    rw [endedWorld_record]
    exact randomized
  unfold cancelledWorld Co.final handleCancellation
  change (Co.eval _ ((transition (w.record r).mrid .cancelled).bind _) w).2 = _
  rw [Co.eval_bind, eval_transition _ _ stored]
  change (Co.eval _ ((postStartedDeviceLifecycle r .cancelled).bind _) (endedWorld w r)).2 = _
  rw [Co.eval_bind, posted]
  simp only [onlyIf, running, if_true]
  change (Co.eval _ (if 0 < cancellationWindDown (w₂.record r) then _ else _) w₂).2 = _
  rw [if_pos wind]
  rfl

/-- So the record has ended, its event is in the timer table, and nothing was
released. -/
theorem cancelledWorld_spec (env : Answers) {w : World} {r : Ref}
    (running : (w.record r).state = .active)
    (stored : w.store.get? (w.record r).mrid = some r)
    (randomized : 0 < cancellationWindDown (w.record r)) :
    ((cancelledWorld env w r).record r).state = .cancelled ∧
      (cancelledWorld env w r).hasPending (w.record r).mrid = true ∧
      (cancelledWorld env w r).modes = w.modes ∧ (cancelledWorld env w r).issued = w.issued := by
  obtain ⟨w₂, answered, result⟩ := cancelledWorld_eq env running stored randomized
  have record₂ : w₂.record r = { w.record r with state := .cancelled } := by
    rw [← endedWorld_record]
    unfold Core.record
    rw [answered.store]
  rw [result]
  refine ⟨?_, ?_, answered.modes, answered.issued⟩
  · change (w₂.record r).state = _
    rw [record₂]
  · simp only [Core.hasPending, World.exec, Core.exec, Core.schedule, decide_eq_true_eq,
      Dict.mem_keys_set, record₂, true_or]

/-- Where the record has ended and its event is still in the timer table, the
timer's task runs nothing and the event stays pending. -/
theorem windDown_runs_nothing {env : Answers} {w begun : World} {r : Ref} {pid : Pid}
    {clock : Option Href → Int} {now : Int}
    (ended : ((cancelledWorld env w r).record r).state.isTerminal = true)
    (pending : (cancelledWorld env w r).hasPending (w.record r).mrid = true)
    (started : (afterWindDown env w r clock now).begins pid (.timer .windDown r) = some begun) :
    (fireTimer .windDown r).final (World.oracle env) begun = begun ∧
      begun.modes = (cancelledWorld env w r).modes ∧
      begun.issued = (cancelledWorld env w r).issued ∧
      begun.hasPending (w.record r).mrid = true := by
  -- The task starts from the cancelled state, with its own timer taken out.
  have same : begun.store = (cancelledWorld env w r).store ∧
      begun.timers = (cancelledWorld env w r).timers ∧
      begun.modes = (cancelledWorld env w r).modes ∧
      begun.issued = (cancelledWorld env w r).issued := by
    simp only [World.begins, Core.begins] at started
    split at started
    · cases started
    · split at started
      · cases started
        exact ⟨rfl, rfl, rfl, rfl⟩
      · cases started
  obtain ⟨store, timers, modes, issued⟩ := same
  have gone : (begun.record r).state.isTerminal = true := by
    unfold Core.record
    rw [store]
    exact ended
  refine ⟨fireTimer_of_terminal _ _ gone, modes, issued, ?_⟩
  unfold Core.hasPending at pending ⊢
  rw [timers]
  exact pending

/-- So the wind-down does not release. -/
theorem not_windDownReleases {env : Answers} {w : World} {r : Ref}
    (ended : ((cancelledWorld env w r).record r).state.isTerminal = true)
    (pending : (cancelledWorld env w r).hasPending (w.record r).mrid = true) :
    ¬ WindDownReleases (fireTimer .windDown) env w r := by
  rintro ⟨pid, t, -, -, -, fires⟩
  obtain ⟨begun, started, -, settled⟩ := fires (cancelledWorld env w r).clock t.target le_rfl
  obtain ⟨nothing, -, -, still⟩ := windDown_runs_nothing ended pending started
  rw [nothing, still] at settled
  cases settled

/-- Whatever the state, the record and the answers: a running event with
randomization, cancelled by the server, is never released by its wind-down. The
timer's task unregisters and dispatches nothing, and leaves the event pending. -/
theorem windDown_never_releases (env : Answers) (w : World) (r : Ref)
    (running : (w.record r).state = .active)
    (stored : w.store.get? (w.record r).mrid = some r)
    (randomized : 0 < cancellationWindDown (w.record r)) :
    ¬ WindDownReleases (fireTimer .windDown) env w r ∧
      ∀ pid clock now after,
        (afterWindDown env w r clock now).alone env pid (.timer .windDown r) = some after →
          after.modes = w.modes ∧ after.issued = w.issued ∧
            after.hasPending (w.record r).mrid = true := by
  obtain ⟨ended, pending, modes, issued⟩ := cancelledWorld_spec env running stored randomized
  have terminal : ((cancelledWorld env w r).record r).state.isTerminal = true := by
    rw [ended]
    rfl
  refine ⟨not_windDownReleases terminal pending, fun pid clock now after ran => ?_⟩
  obtain ⟨begun, started, rfl⟩ := Option.map_eq_some_iff.mp ran
  obtain ⟨nothing, modes', issued', still⟩ := windDown_runs_nothing terminal pending started
  rw [show (Job.timer .windDown r).body = fireTimer .windDown r from rfl, nothing]
  exact ⟨modes'.trans modes, issued'.trans issued, still⟩

/-- The wind-down's task as the comments of `_handle_cancellation` have it: the
fallback, and its entry out of the table. -/
def windDownTask (r : Ref) : Proc Unit := do
  applyDdercFallback r false
  let w ← getWorld
  perform (.cancelTimers (w.record r).mrid)

theorem windDownTask_final (env : Answers) (r : Ref) (w : World) :
    let fallen := (applyDdercFallback r false).final (World.oracle env) w
    (windDownTask r).final (World.oracle env) w =
      World.exec (.cancelTimers (fallen.record r).mrid) fallen := by
  obtain ⟨_, returned⟩ := Co.eval_returns (World.oracle env) (applyDdercFallback_within r false) w
  change (Co.eval _ ((applyDdercFallback r false).bind _) w).2 = _
  rw [Co.eval_bind]
  unfold Co.final
  generalize (applyDdercFallback r false).eval (World.oracle env) w = ran at returned ⊢
  obtain ⟨_, fallen⟩ := ran
  cases returned
  rfl

/-- It makes of any state what the fallback does, and leaves the event no longer
pending. -/
theorem windDownTask_fellBack (env : Answers) (r : Ref) (w : World) :
    FellBack env r w ((windDownTask r).final (World.oracle env) w) ∧
      ((windDownTask r).final (World.oracle env) w).hasPending (w.record r).mrid = false := by
  have mrid : (((applyDdercFallback r false).final (World.oracle env) w).record r).mrid =
      (w.record r).mrid :=
    (eval_kept env (applyDdercFallback_within r false) (by decide) w).mrid r
  unfold FellBack
  rw [windDownTask_final]
  generalize (applyDdercFallback r false).final (World.oracle env) w = fallen at mrid ⊢
  refine ⟨⟨rfl, rfl, rfl⟩, ?_⟩
  simp [mrid, Core.hasPending, World.exec, Core.exec, Core.cancelTimers, Dict.mem_keys_erase]

/-- What is asked of the wind-down can be had: with that task it releases. -/
theorem windDownTask_releases (env : Answers) {w : World} {r : Ref} (opened : w.closed = false)
    (running : (w.record r).state = .active)
    (stored : w.store.get? (w.record r).mrid = some r)
    (randomized : 0 < cancellationWindDown (w.record r)) :
    WindDownReleases windDownTask env w r := by
  obtain ⟨w₂, answered, result⟩ := cancelledWorld_eq env running stored randomized
  have unclosed : w₂.closed = false := by
    obtain ⟨_, _, rfl⟩ := answered
    exact opened
  have mrid : (w₂.record r).mrid = (w.record r).mrid := by
    have same : w₂.record r = (endedWorld w r).record r := by
      unfold Core.record
      rw [answered.store]
    rw [same, endedWorld_record]
  unfold WindDownReleases afterWindDown
  rw [result]
  refine ⟨w₂.nextPid, ⟨r, .windDown, w₂.localClock + cancellationWindDown (w₂.record r), none⟩,
    by simp [World.exec, Core.exec, Core.schedule], rfl, rfl, fun clock now elapsed => ?_⟩
  simp only [World.begins, Core.begins, World.exec, Core.exec, Core.schedule, Dict.get?_set_self,
    Core.timerNow, unclosed, elapsed, and_self, if_true, Option.map_some, Option.some.injEq,
    exists_eq_left']
  have done := windDownTask_fellBack env r
  refine ⟨(done _).1, ?_⟩
  rw [← mrid]
  exact (done _).2

/-- A running event that may start up to 30 s late. -/
def randomizedWorld : World :=
  World.polled "/derp/1"
    { toCore := plainCore
        [plainProgram "/derp/1" 1
          [{ plainControl 1 0 1000 .opModFixedW with randomizeStart := some 30 }]]
        [("/derp/1", "/edev/1")] }

theorem randomizedWorld_never_released :
    (randomizedWorld.record 0).state = .active ∧
      randomizedWorld.store.get? (randomizedWorld.record 0).mrid = some 0 ∧
      0 < cancellationWindDown (randomizedWorld.record 0) ∧
      ¬ WindDownReleases (fireTimer .windDown) {} randomizedWorld 0 :=
  ⟨by decide, by decide, by decide,
    (windDown_never_releases {} randomizedWorld 0 (by decide) (by decide) (by decide)).1⟩

/-- After the 30 s its timer has fired: the device is still registered to the
event, the event wrote it last, and the event still counts as pending. -/
theorem randomizedWorld_stuck :
    let later := ((cancelledWorld {} randomizedWorld 0).atTime 30).fired 4
    ¬ WindDownReleases (fireTimer .windDown) {} randomizedWorld 0 ∧
      later.modes.modesOf "/edev/1" 1 = {.opModFixedW} ∧
      later.lastWriter (.href "/edev/1") .opModFixedW = some (.event 1) ∧
      later.sleeping.keys = [] ∧ later.cancelledPending "/derp/1" = true :=
  ⟨not_windDownReleases (by decide) (by decide), by decide, by decide, by decide, by decide⟩

end Py20305
