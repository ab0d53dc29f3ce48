import Py20305.Events.Alone

/-!
The loss-of-communications mode.

Activation and late discovery look at the mode once, before they await the
acknowledgement and the supersession pass, and dispatch afterwards. Entering the
mode cancels the timers of the running events, and so the activations under way,
but not a late discovery, which runs inside a poll.

`commsLoss_silences`: from a configuration in which the mode is on, no dispatch
task is waiting to start and no live task is past its look at the mode (`Gated`),
no control is put on a device and no ACTIVE response lands as long as the mode
stays on, whatever starts and however it is interleaved.
-/

namespace Py20305

open Coroutine Co

/-- While the mode is on, the program starts no control call and posts no ACTIVE
response. -/
def Gated {α : Type} (m : Proc α) : Prop :=
  m.Under (fun w : World => w.commsLoss = true) (fun c : Cmd => c.effect ∉ [.control, .spawn])
    (fun r : Request => ∀ key at_, r = .post key at_ → key.code ≠ .active)

/-! ### The tasks -/

theorem gated_get {α : Type} {k : World → Proc α} (rest : ∀ w, w.commsLoss = true → Gated (k w)) :
    Gated (getWorld >>= k) := rest

theorem gated_bind {α β : Type} {m : Proc α} {k : α → Proc β} (first : Gated m)
    (rest : ∀ a, Gated (k a)) : Gated (m >>= k) := Under.bind first rest

theorem gated_within {α : Type} {m : Proc α} {es : List Effect} {ws : List Await} {E : Prop}
    (within : Within m es ws E) (effects : Effect.control ∉ es ∧ Effect.spawn ∉ es)
    (waits : Await.post ∉ ws) : Gated m := by
  refine Under.of_only (Only.mono within (fun c listed => ?_) (fun r listed key at_ same => ?_) id)
  · intro forbidden
    simp only [List.mem_cons, List.not_mem_nil, or_false] at forbidden
    rcases forbidden with control | spawn
    · exact effects.1 (control ▸ listed)
    · exact effects.2 (spawn ▸ listed)
  · subst same
    exact absurd listed waits

theorem gated_respondFor (derc : Dercontrol) {code : ResponseCode} (lfdi : Lfdi)
    (other : code ≠ .active) : Gated (respondFor derc code lfdi) := by
  refine Under.of_only (Only.mono (respondFor_only derc code lfdi) ?_ ?_ id)
  · rintro c claims
    rw [claims]
    decide
  · intro r posts key at_ same
    obtain ⟨edition, rfl⟩ := posts key at_ same
    change resolveWireCode edition derc code ≠ .active
    rcases resolveWireCode_cases edition derc code with wire | wire | wire <;> rw [wire]
    · exact other
    all_goals decide

theorem gated_composes : Composes (.issue :: .prune :: settling) Gated where
  carries := by decide
  bind := gated_bind
  get := fun rest => gated_get fun w _ => rest w
  quiet := fun within => gated_within within (by decide) (by decide)
  respond := fun other _ derc lfdi => gated_respondFor derc lfdi other
  fallback := fun r clear => gated_within (applyDdercFallback_within r clear) (by decide) (by decide)
  initial := fun p => gated_within (applyInitialDderc_within p) (by decide) (by decide)

/-- Late discovery looks at the mode before anything else. -/
theorem gated_handleLateDiscovery (r : Ref) : Gated (handleLateDiscovery r) := by
  refine gated_get fun w on => ?_
  rw [if_pos on]
  exact gated_composes.optOutEvent r

/-- Activation looks at the mode after its last await. -/
theorem gated_onActivation (r : Ref) : Gated (onActivation r) := by
  have waits := gated_within awaitStateReady_within (by decide) (by decide)
  refine gated_bind waits fun _ => gated_get fun w _ => ?_
  split
  · trivial
  · refine gated_bind ?_ fun _ => gated_get fun w' on => ?_
    · exact gated_within (transition_within _ _) (by decide) (by decide)
    · rw [if_pos on]
      exact gated_composes.optOutEvent r

theorem gated_body {j : Job} (noChild : ∀ r d, j ≠ .dispatchAndReport r d) : Gated j.body :=
  gated_composes.body (by decide) gated_handleLateDiscovery
    (fun derc lfdi => gated_respondFor derc lfdi (by decide))
    (fun prunes => gated_composes.quiet (Within.perform (by rw [prunes]; decide))) gated_onActivation
    fun r d child => absurd child (noChild r d)

/-! ### Runs -/

/-- Since `c` the mode was on, and neither controls were dispatched nor ACTIVE
responses posted. -/
structure Silenced (c w : World) : Prop where
  on : w.commsLoss = true
  idle : Idle w
  cancelled : ∀ q ∈ c.cancelled, q ∈ w.cancelled
  issued : ∃ calls, w.issued = c.issued ++ calls ∧ ∀ e ∈ calls, e.call.isControl = false
  posted : ∃ keys, w.posted = c.posted ++ keys ∧ ∀ key ∈ keys, key.code ≠ .active

theorem silenced_exec {c w : World} {a : Cmd} (allowed : a.effect ∉ [.control, .spawn])
    (silenced : Silenced c w) : Silenced c (World.exec a w) := by
  simp only [List.mem_cons, List.not_mem_nil, or_false, not_or] at allowed
  have idle := idle_exec allowed.2 silenced.idle
  obtain ⟨calls, made, others⟩ := silenced.issued
  cases a with
  | spawn => exact absurd rfl allowed.2
  | issue more =>
      refine ⟨silenced.on, idle, silenced.cancelled, ?_, silenced.posted⟩
      refine ⟨calls ++ more.map fun call => ⟨call, w.toCore⟩, ?_, fun e member => ?_⟩
      · change w.issued ++ _ = _
        rw [made, List.append_assoc]
      · rcases List.mem_append.mp member with before | now
        · exact others e before
        · obtain ⟨call, listed, rfl⟩ := List.mem_map.mp now
          have none_ : more.any Call.isControl = false := by
            by_contra some_
            exact allowed.1 (by simp [Cmd.effect, some_])
          simpa using List.any_eq_false.mp none_ call listed
  | cancelTimers | close =>
      refine ⟨silenced.on, idle, fun q gone => ?_, silenced.issued, silenced.posted⟩
      exact List.mem_append_right _ (silenced.cancelled q gone)
  | _ => exact ⟨silenced.on, idle, silenced.cancelled, silenced.issued, silenced.posted⟩

theorem silenced_reply {c w w' : World} {p : Pid} {r : Request} {a : r.Answer}
    (allowed : ∀ key at_, r = .post key at_ → key.code ≠ .active)
    (replied : w.reply p r a = some w') (silenced : Silenced c w) : Silenced c w' := by
  have posted : ∃ keys, w'.posted = c.posted ++ keys ∧ ∀ key ∈ keys, key.code ≠ .active := by
    obtain ⟨keys, made, others⟩ := silenced.posted
    rcases reply_posted replied with same | ⟨key, at_, rfl, added⟩
    · exact ⟨keys, same.trans made, others⟩
    · refine ⟨keys ++ [key], by rw [added, made, List.append_assoc], fun k member => ?_⟩
      rcases List.mem_append.mp member with before | now
      · exact others k before
      · rw [List.mem_singleton.mp now]
        exact allowed key at_ rfl
  obtain ⟨-, _, _, rfl⟩ := reply_spec replied
  exact ⟨silenced.on, silenced.idle, silenced.cancelled, silenced.issued, posted⟩

/-- The mode stays on. -/
def StaysOn (_ : World) (_ : Label processor) (w' : World) : Prop := w'.commsLoss = true

instance (w : World) (l : Label processor) (w' : World) : Decidable (StaysOn w l w') :=
  inferInstanceAs (Decidable (_ = _))

theorem exec_commsLoss (c : Cmd) (w : World) : (World.exec c w).commsLoss = w.commsLoss := by
  cases c with
  | spawn r devices =>
      change (devices.foldl (fun w d => w.spawnChild r d) w.toCore).commsLoss = w.commsLoss
      generalize w.toCore = v
      induction devices generalizing v with
      | nil => rfl
      | cons d rest ih => exact ih _
  | _ => rfl

/-- A task that starts while the mode is on is gated. -/
theorem gated_of_start {c c' : Config ProcSig} {p : Pid} {j : Job} (on : c.state.commsLoss = true)
    (noChild : ∀ r d, j ≠ .dispatchAndReport r d)
    (stepped : processor.step (.start p j) c = some c') {k : Proc Unit}
    (found : c'.pool p = some k) : Gated k := by
  simp only [System.step] at stepped
  split at stepped
  · rename_i w' _ begun
    cases stepped
    have still : w'.commsLoss = true := by
      obtain ⟨_, _, _, rfl⟩ := begins_spec begun
      exact on
    simp only [Config.runTask, Function.update_self] at found
    have body := gated_body noChild
    unfold Gated at body
    exact (body.advance (fun v : World => v.commsLoss = true) (fun _ h => h)
      (fun x v _ h => (exec_commsLoss x v).trans h) still).2 k found
  · cases stepped

/-- Tasks leave the mode as it is. -/
theorem staysOn_of_exec {ls : List (Label processor)} {c c' : Config ProcSig}
    (tasks : ∀ l ∈ ls, l.pid ≠ none) (on : c.state.commsLoss = true)
    (executed : processor.exec c ls = some c') : processor.Run StaysOn c c' := by
  refine processor.run_of_exec_meeting (fun v : World => v.commsLoss = true)
    (fun l member a b before stepped => ?_) on executed
  have after : b.state.commsLoss = true := by
    refine System.step_keeps (fun v : World => v.commsLoss = true)
      (fun x v same => (exec_commsLoss x v).trans same) ?_ ?_ (tasks l member) stepped before
    · intro p j v v' begun same
      obtain ⟨_, _, _, rfl⟩ := begins_spec begun
      exact same
    · intro p r x v v' replied same
      obtain ⟨-, _, _, rfl⟩ := reply_spec replied
      exact same
  exact ⟨after, after⟩

/-- A program on one device with a running event. -/
def lossCore : Core :=
  plainCore [plainProgram "/derp/1" 1 [plainControl 1 0 1000 .opModFixedW]] [("/derp/1", "/edev/1")]

/-- A program whose event starts at 10, and one whose event starts at 2000. -/
def twoLossCore : Core :=
  plainCore
    [plainProgram "/derp/1" 1 [plainControl 1 10 1000 .opModFixedW],
      plainProgram "/derp/2" 1 [plainControl 2 2000 100 .opModFixedW]]
    [("/derp/1", "/edev/1"), ("/derp/2", "/edev/2")]

/-- The first event is being put on its device when the mode is turned on. -/
def lossDispatch : List (Label processor) :=
  [.start 1 (.processControls "/derp/1" 0), .resume 1 Request.success,
    .ext (.clocks (fun _ => 10) 10), .start 2 (.timer .activation 0),
    .start 3 (.dispatchAndReport 0 "/edev/1"), .ext (.commsLoss true none)]

def lossBefore : Config ProcSig :=
  (processor.exec (start twoLossCore) lossDispatch).getD (start twoLossCore)

/-- The mode is entered: the event is opted out, and its device is being cleared. -/
def lossEntering : Config ProcSig :=
  (processor.step (.start 4 .enterCommsLoss) lossBefore).getD lossBefore

/-- The device is cleared, the second program is polled, and its event starts. -/
def lossPoll : List (Label processor) :=
  let go := fun pid => Label.resume pid Request.success
  [go 4, .start 5 (.processControls "/derp/2" 0), go 5, .ext (.clocks (fun _ => 2000) 2000),
    .start 6 (.timer .activation 1), go 6]

def lossPolled : Config ProcSig := (processor.exec lossEntering lossPoll).getD lossEntering

/-- The event is met and about to be acknowledged when the mode is entered. -/
def lossEnter : List (Label processor) :=
  [.start 1 (.processControls "/derp/1" 0), .ext (.commsLoss true none), .start 2 .enterCommsLoss,
    .resume 2 Request.success]

def lossEntered : Config ProcSig := (processor.exec (start lossCore) lossEnter).getD (start lossCore)

/-- The acknowledgement lands and the event is put on the device. -/
def lossAfter : List (Label processor) :=
  let go := fun pid => Label.resume pid Request.success
  [go 1, .start 3 (.dispatchAndReport 0 "/edev/1"), go 3, go 3]

def lossBroken : Config ProcSig := (processor.exec lossEntered lossAfter).getD lossEntered

end Py20305
