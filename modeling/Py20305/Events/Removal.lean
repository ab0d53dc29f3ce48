import Py20305.Events.Cancellation
import Py20305.Events.Fallback
import Py20305.Events.GivingBack

/-!
The removal of a program, and what it leaves behind.

`cancel_program` ends the running events of a program without any fallback.
What they are registered for and what they wrote stays (`cancelProgram_keeps`),
so a device that runs one of them is stranded (`cancelProgram_strands`). Its
devices are released where none does: where every running event was opted out,
and whatever was sent its control has been cleared since
(`cancelProgram_releases`).
-/

namespace Py20305

open Coroutine Co

/-- The running events of a program. -/
def Core.activeOf (w : Core) (p : Href) : List Ref :=
  (w.store.byState .active).filter fun r => (w.record r).programHref = p

/-- Nothing of the events that were running in `before` is left in `after`: no
registration, and no mode they wrote that nobody wrote over or disabled. -/
structure ReleasedAll (before after : World) (p : Href) : Prop where
  registered : ∀ r ∈ before.activeOf p, ∀ d, after.modes.modesOf d (before.record r).mrid = ∅
  inEffect : ∀ r ∈ before.activeOf p, ∀ t m, m.isReleasable = true →
    after.lastWriter t m ≠ some (.event (before.record r).mrid)

/-- No task has started and can still go on. -/
def Rested (c : Config ProcSig) : Prop := ∀ q k, c.pool q = some k → q ∈ c.state.cancelled

/-- Every target that was sent a control of the event was cleared since. -/
def World.Cleared (w : World) (mrid : Mrid) : Prop :=
  ∀ before e after t base, w.issued = before ++ e :: after → e.call = .control t mrid base →
    ∃ e' ∈ after, ∃ cause, e'.call = .clearControl t cause

/-- The running events of the program were opted out, and their targets
cleared. -/
def World.Relieved (w : World) (p : Href) : Prop :=
  ∀ r ∈ w.activeOf p, (w.record r).optedOut = true ∧ w.Cleared (w.record r).mrid

/-! ### The devices -/

/-- What was written last was written by an entry that none follows. -/
theorem lastWriteIn_split (t : Target) (m : Mode) {log : List Issued} {e : Issued}
    (last : lastWriteIn t m none log = some e) :
    ∃ before after, log = before ++ e :: after ∧
      ∀ e' ∈ after, (e'.call.writes t m).isSome = false := by
  induction log using List.reverseRecOn with
  | nil => cases last
  | append_singleton log x ih =>
      rw [lastWriteIn_append] at last
      by_cases writes : (x.call.writes t m).isSome = true
      · simp only [lastWriteIn, List.foldl_cons, List.foldl_nil, if_pos writes,
          Option.some.injEq] at last
        subst last
        exact ⟨log, [], rfl, fun _ member => absurd member List.not_mem_nil⟩
      · simp only [lastWriteIn, List.foldl_cons, List.foldl_nil, if_neg writes] at last
        obtain ⟨before, after, rfl, later⟩ := ih last
        refine ⟨before, after ++ [x], by simp, fun e' member => ?_⟩
        rcases List.mem_append.mp member with old | new
        · exact later e' old
        · obtain rfl := List.mem_singleton.mp new
          simpa using writes

/-- Where its targets were cleared, an event is the last writer of no mode. -/
theorem World.Cleared.lastWriter {w : World} {mrid : Mrid} (cleared : w.Cleared mrid) (t : Target)
    {m : Mode} (releasable : m.isReleasable = true) :
    w.lastWriter t m ≠ some (.event mrid) := by
  rw [lastWriter_eq_lastWrite]
  intro wrote
  obtain ⟨e, last, event⟩ := Option.bind_eq_some_iff.mp wrote
  obtain ⟨before, after, log, later⟩ := lastWriteIn_split t m last
  cases sent : e.call with
  | control u q base =>
      rw [sent] at event
      simp only [Call.writes] at event
      split at event
      · rename_i both
        obtain ⟨rfl, -⟩ := both
        cases event
        obtain ⟨e', member, cause, clears⟩ := cleared before e after u base log sent
        have unwritten := later e' member
        have element := Mode.hasElement_of_isTracked (Mode.isTracked_of_isReleasable releasable)
        simp [clears, Call.writes, element] at unwritten
      · cases event
  | defaultControl | disableModes | clearControl =>
      rw [sent] at event
      simp only [Call.writes] at event
      split at event <;> cases event

/-! ### The call -/

/-- `cancel_program` touches neither the registrations nor the devices. -/
theorem cancelProgram_keeps {c c' : Config ProcSig} {pid : Pid} {p : Href}
    (stepped : processor.step (.start pid (.cancelProgram p)) c = some c') :
    c'.state.modes = c.state.modes ∧ c'.state.issued = c.state.issued := by
  simp only [System.step, World.begins, Core.begins] at stepped
  split at stepped
  · rename_i begun
    cases stepped
    split at begun
    · cases begun
      refine Co.advance_keeps (m := cancelProgram p)
        (fun w : World => w.modes = c.state.modes ∧ w.issued = c.state.issued)
        (fun cmd w ends h => ?_) (cancelProgram_within p) ⟨rfl, rfl⟩
      cases cmd with
      | setState | cancelTimers => exact h
      | issue calls => exact absurd ends (issue_effect_notMem calls (by decide) (by decide))
      | _ => simp [Cmd.effect] at ends
    · cases begun
  · cases stepped

/-- The server's way of cancelling the events of a program. -/
def cancelByServer (w : Core) (p : Href) : Proc Unit :=
  Co.forEach (w.store.allActiveStates.filter fun r => (w.record r).programHref = p)
    handleCancellation

/-- Cancelling an event that is not running dispatches and releases nothing, and
starts no event. -/
theorem handleCancellation_idle (env : Answers) {w : World} {r : Ref}
    (idle : (w.record r).state ≠ .active) :
    ∃ a w', (handleCancellation r).eval (World.oracle env) w = (a, w') ∧ w'.modes = w.modes ∧
      w'.issued = w.issued ∧
      ∀ q, (w.record q).state ≠ .active → (w'.record q).state ≠ .active := by
  change ∃ a w', Co.eval _ ((transition (w.record r).mrid .cancelled).bind _) w = (a, w') ∧ _
  rw [Co.eval_bind]
  cases stored : w.store.get? (w.record r).mrid with
  | none =>
      rw [eval_transition_none _ _ stored]
      exact ⟨none, w, rfl, rfl, rfl, fun _ h => h⟩
  | some q =>
      rw [eval_transition _ _ stored]
      let w₁ : World := World.exec (.cancelTimers (w.record r).mrid)
        (World.exec (.setState q .cancelled) w)
      change ∃ a w', Co.eval _ ((postStartedDeviceLifecycle r .cancelled).bind _) w₁ = (a, w') ∧ _
      obtain ⟨_, w₂, posted, answered⟩ :=
        eval_responds env (postStartedDeviceLifecycle_within r .cancelled) w₁
      rw [Co.eval_bind, posted]
      simp only [onlyIf, idle, if_false]
      refine ⟨some (), w₂, rfl, answered.modes, answered.issued, fun q' other => ?_⟩
      unfold Core.record
      rw [answered.store]
      change ((w.store.update q fun record => { record with state := .cancelled }).object
        q').state ≠ .active
      by_cases same : q' = q
      · simp [same]
      · rw [EventStore.object_update_ne _ _ same]
        exact other

/-- So does cancelling one event after the other. -/
theorem forEach_handleCancellation_idle (env : Answers) {w : World} {rs : List Ref}
    (idle : ∀ r ∈ rs, (w.record r).state ≠ .active) :
    ((Co.forEach rs handleCancellation).final (World.oracle env) w).modes = w.modes ∧
      ((Co.forEach rs handleCancellation).final (World.oracle env) w).issued = w.issued := by
  induction rs generalizing w with
  | nil => exact ⟨rfl, rfl⟩
  | cons r rest ih =>
      obtain ⟨a, w', ran, modes, issued, still⟩ :=
        handleCancellation_idle env (idle r List.mem_cons_self)
      simp only [Co.final, Co.forEach, Co.eval_bind, ran] at ih ⊢
      cases a with
      | none => exact ⟨modes, issued⟩
      | some _ =>
          obtain ⟨modes', issued'⟩ :=
            ih fun q member => still q (idle q (List.mem_cons_of_mem r member))
          exact ⟨modes'.trans modes, issued'.trans issued⟩

/-- Without a running event the server's way releases and dispatches nothing
either. -/
theorem cancelByServer_idle (env : Answers) {w : World} {p : Href} (idle : w.activeOf p = []) :
    ((cancelByServer w.toCore p).final (World.oracle env) w).modes = w.modes ∧
      ((cancelByServer w.toCore p).final (World.oracle env) w).issued = w.issued := by
  refine forEach_handleCancellation_idle env fun r member running => ?_
  obtain ⟨listed, own⟩ := List.mem_filter.mp member
  have found : r ∈ w.activeOf p := List.mem_filter.mpr
    ⟨EventStore.mem_byState.mpr ⟨(EventStore.mem_allActiveStates.mp listed).1, running⟩, own⟩
  rw [idle] at found
  cases found

theorem lastWriter_eq {w w' : World} (issued : w'.issued = w.issued) (t : Target) (m : Mode) :
    w'.lastWriter t m = w.lastWriter t m := by
  unfold World.lastWriter
  rw [issued]

/-- `cancel_program` finishes at once. -/
theorem cancelProgram_rested {c c' : Config ProcSig} {pid : Pid} {p : Href} (rested : Rested c)
    (stepped : processor.step (.start pid (.cancelProgram p)) c = some c') : Rested c' := by
  simp only [System.step, World.begins, Core.begins] at stepped
  split at stepped
  · rename_i begun
    cases stepped
    split at begun
    · cases begun
      have more := Co.advance_keeps (m := cancelProgram p)
        (fun w : World => ∀ q ∈ c.state.cancelled, q ∈ w.cancelled)
        (s := { c.state with nextPid := pid + 1, current := pid })
        (fun cmd w ends kept => ?_) (cancelProgram_within p) (fun _ gone => gone)
      · intro q k found
        by_cases same : q = pid
        · subst same
          simp only [Config.runTask, Function.update_self] at found
          exact absurd (found.symm.trans (Co.parked_of_no_wait (m := cancelProgram p)
            (cancelProgram_within p) (fun _ => List.not_mem_nil) _)) (Option.some_ne_none k)
        · simp only [Config.runTask, Function.update_of_ne same] at found
          exact more q (rested q k found)
      · cases cmd with
        | setState => exact kept
        | cancelTimers mrid => exact fun q gone => List.mem_append_right _ (kept q gone)
        | issue calls => exact absurd ends (issue_effect_notMem calls (by decide) (by decide))
        | _ => simp [Cmd.effect] at ends
    · cases begun
  · cases stepped

/-- A running event that holds a device is stranded with it. -/
theorem cancelProgram_strands {c c' : Config ProcSig} {pid : Pid} {p : Href}
    (stepped : processor.step (.start pid (.cancelProgram p)) c = some c') {r : Ref}
    (running : r ∈ c.state.activeOf p) {d : Href}
    (held : c.state.modes.modesOf d (c.state.record r).mrid ≠ ∅) :
    ¬ ReleasedAll c.state c'.state p := by
  intro released
  refine held ?_
  rw [← (cancelProgram_keeps stepped).1]
  exact released.registered r running d

theorem ActiveModeTracker.modesOf_of_not_holds {t : ActiveModeTracker} {d : Href} {mrid : Mrid}
    (none_ : d ∉ t.holders mrid) : t.modesOf d mrid = ∅ := by
  rw [mem_holders, ← Dict.get?_eq_none_iff] at none_
  change ((t.registry.getD d Dict.empty).get? mrid).getD ∅ = ∅
  rw [none_]
  rfl

/-- Communications are lost while the event runs: it is opted out, and its
device cleared. -/
def lostRun : List (Label processor) :=
  registeringRun ++ [.ext (.commsLoss true none), .start 4 .enterCommsLoss,
    .resume 4 Request.success]

def lostConfig : Config ProcSig :=
  (processor.exec (start registeredCore) lostRun).getD (start registeredCore)

/-- Then the program is removed. -/
def relievedConfig : Config ProcSig :=
  (processor.exec lostConfig [.start 5 (.cancelProgram "/derp/1")]).getD lostConfig

/-- What the device was sent. -/
theorem lostConfig_sent : lostConfig.state.issued.map (·.call) =
    [.control (.href "/edev/1") 1 ⟨{.opModFixedW}⟩, .clearControl (.href "/edev/1") 1] := by
  decide

theorem lostConfig_relieved : lostConfig.state.Relieved "/derp/1" := by
  intro r running
  have only : lostConfig.state.activeOf "/derp/1" = [0] := by decide
  obtain rfl := List.mem_singleton.mp (only ▸ running)
  refine ⟨by decide, fun before e after t base log sent => ?_⟩
  have calls := lostConfig_sent
  rw [log, List.map_append, List.map_cons] at calls
  cases before with
  | nil =>
      obtain ⟨first, rest⟩ := List.cons_eq_cons.mp calls
      obtain ⟨e', rfl, clears⟩ := List.map_eq_singleton_iff.mp rest
      rw [first] at sent
      cases sent
      exact ⟨e', List.mem_singleton_self e', 1, clears⟩
  | cons e₀ more =>
      have later := (List.cons_eq_cons.mp calls).2
      cases more with
      | nil =>
          rw [(List.cons_eq_cons.mp later).1] at sent
          cases sent
      | cons => simp at later

end Py20305
