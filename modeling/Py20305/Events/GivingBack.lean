import Py20305.Events.Registrations

/-!
Every registration is given back.

Along a course of harmless steps, every task that ends an event unregisters its devices before it
is done, and nothing ends the task before. So where no task is left, every entry of the tracker
belongs to an event that runs (`registered_running`).

Without the conditions entries stay behind: `removal_leaves_entry` is what the removal of a program leaves.
-/

namespace Py20305

open Coroutine Co

/-! ### Starting, answering and the environment -/

section Around

variable {w w' : World} (sound : Consistent w)

include sound

theorem quiet_reply {p : Pid} {r : Request} {a : r.Answer} (replied : w.reply p r a = some w') :
    givingBack.Quiet none w w' := by
  obtain ⟨-, responses, posted, rfl⟩ := reply_spec replied
  exact quiet_of_kept sound (.of_same le_rfl rfl rfl rfl fun _ _ sleeps => sleeps)
    (EventsKept.of_store rfl) rfl rfl (fun _ => rfl) (fun _ => rfl)
    (fun _ _ _ _ owner => owner.device) fun _ _ entry => entry

omit sound in
/-- A start does not book anybody, and wakes nobody but the timer that starts. -/
theorem begins_tasks {p : Pid} {j : Job} (begun : w.begins p j = some w') :
    Tasks w.toCore w'.toCore := by
  obtain ⟨core, started, rfl⟩ := Option.map_eq_some_iff.mp begun
  change Tasks w.toCore core
  cases j with
  | timer callback r =>
      simp only [Core.begins] at started
      split at started
      · cases started
      · split_ifs at started
        cases started
        refine .of_same le_rfl rfl rfl rfl fun q t sleeps => ?_
        simp only [Dict.get?_erase] at sleeps
        split at sleeps
        · cases sleeps
        · exact sleeps
  | dispatchAndReport r d =>
      simp only [Core.begins] at started
      split_ifs at started
      cases started
      exact .of_same le_rfl rfl rfl rfl fun _ _ sleeps => sleeps
  | _ =>
      simp only [Core.begins] at started
      split_ifs at started with new
      cases started
      exact .of_same (new ▸ Nat.le_succ _) rfl rfl rfl fun _ _ sleeps => sleeps

theorem quiet_begins {p : Pid} {j : Job} (begun : w.begins p j = some w') :
    givingBack.Quiet none w w' := by
  have tasks := begins_tasks begun
  obtain ⟨sleeping, spawned, nextPid, rfl⟩ := begins_spec begun
  exact quiet_of_kept sound tasks (EventsKept.of_store rfl) rfl rfl (fun _ => rfl) (fun _ => rfl)
    (fun _ _ _ _ owner => owner.device) fun _ _ entry => entry

/-- A call from outside is a new task. -/
theorem begins_call {p : Pid} {j : Job} (begun : w.begins p j = some w')
    (call : ∀ v : Core, v.begins p j =
      if p = v.nextPid then some { v with nextPid := p + 1, current := p } else none) :
    w'.Task p fun _ => False := by
  obtain ⟨core, started, rfl⟩ := Option.map_eq_some_iff.mp begun
  rw [call] at started
  split_ifs at started with new
  cases started
  subst new
  refine ⟨Nat.lt_succ_self _, fun gone => ?_, fun child => ?_, fun mrid listed => ?_⟩
  · exact (sound.booked.cancelled _ gone).false
  · exact (sound.booked.children _ child).false
  · exact (sound.booked.timers mrid _ listed).false

/-- A timer that starts is in the table under its event only. -/
theorem begins_timer {p : Pid} {callback : Callback} {r : Ref}
    (begun : w.begins p (.timer callback r) = some w') :
    r < w'.store.next ∧ w'.Task p (· = (w'.record r).mrid) := by
  have tasks := begins_tasks begun
  obtain ⟨core, started, rfl⟩ := Option.map_eq_some_iff.mp begun
  simp only [Core.begins] at started
  split at started
  · cases started
  · rename_i t sleeps
    split_ifs at started with fits
    cases started
    obtain ⟨made, task⟩ := sound.booked.asleep p t sleeps
    rw [fits.1] at made task
    exact ⟨made, task.moved tasks task.alive⟩

theorem quiet_ext {e : Ext} (harmless : Harmless w (.ext e)) :
    givingBack.Quiet none w { w with toCore := e.apply w.toCore } := by
  have tasks : Tasks w.toCore (e.apply w.toCore) := by
    cases e <;> exact .of_same le_rfl rfl rfl rfl fun _ _ sleeps => sleeps
  cases e with
  | discovered state epoch ready =>
      refine quiet_of_kept sound tasks (EventsKept.of_store rfl) rfl rfl (fun _ => rfl)
        (fun _ => rfl) (fun r d mrid entry owner => ?_) fun _ _ entry => entry
      obtain ⟨made, rfl, device, sole⟩ := owner
      exact harmless r made sole d entry device
  | _ =>
      exact quiet_of_kept sound tasks (EventsKept.of_store rfl) rfl rfl (fun _ => rfl)
        (fun _ => rfl) (fun _ _ _ _ owner => owner.device) fun _ _ entry => entry

end Around

/-! ### What a task knows -/

/-- Task `p` runs, in the table under `books` only; it knows the records `refs`, with their mRIDs,
and has `hands` in hand. -/
structure Grip (p : Pid) (books : Mrid → Prop) (refs : List (Ref × Mrid)) (hands : List Ref)
    (w : World) : Prop where
  current : w.current = p
  task : w.Task p books
  refs : ∀ e ∈ refs, e.1 < w.store.next ∧ (w.record e.1).mrid = e.2
  held : ∀ r ∈ hands, r ∈ w.held p

section Steps

variable {α β : Type} {p : Pid} {books : Mrid → Prop} {refs : List (Ref × Mrid)} {hands : List Ref}
  {w w' : World} {Q : β → World → Prop}

theorem Grip.moved (grip : Grip p books refs hands w) (unswayed : Unswayed p w w')
    (current : w'.current = p) (alive : p ∉ w'.cancelled) : Grip p books refs hands w' where
  current := current
  task := unswayed.task books grip.task alive
  refs e member := by
    obtain ⟨made, own⟩ := grip.refs e member
    exact ⟨made.trans_le unswayed.next, (unswayed.mrid _ made).trans own⟩
  held r member := by
    rw [unswayed.held]
    exact grip.held r member

/-- After a wait a task finds what it knows as it was. -/
theorem Grip.answered {v : World} {r : Request} {a : r.Answer} (grip : Grip p books refs hands w)
    (unswayed : Unswayed p w v) (sound : Consistent v) (replied : v.reply p r a = some w') :
    Grip p books refs hands w' := by
  obtain ⟨alive, current, -, cancelled⟩ := reply_task replied
  have quiet := quiet_reply sound replied
  refine grip.moved (unswayed.trans (quiet.rely p (Option.some_ne_none p))) current ?_
  rwa [cancelled]

theorem gentle_cancelled {c : Cmd} (listed : c.effect ∈ gentle) (w : World) :
    (World.exec c w).cancelled = w.cancelled := by
  cases c with
  | spawn r devices => exact (spawn_tasks w.toCore r devices).2
  | cancelTimers | close => simp [Cmd.effect] at listed
  | _ => rfl

theorem Grip.gentle {c : Cmd} (grip : Grip p books refs hands w) (listed : c.effect ∈ gentle)
    (sound : Consistent w) (harmless : c.Harmless w) :
    Grip p books refs hands (World.exec c w) := by
  refine grip.moved ((quiet_exec sound listed harmless).rely p (Option.some_ne_none p))
    ((exec_current c w).trans grip.current) ?_
  rw [gentle_cancelled listed]
  exact grip.task.alive

/-- A coroutine of gentle commands. -/
theorem dutiful_gentle {m : Proc α} {es : List Effect} {ws : List Await} {E : Prop}
    (within : Within m es ws E) (listed : es ⊆ gentle) (grip : Grip p books refs hands w) :
    givingBack.Dutiful p (fun _ w' => Grip p books refs hands w') m w := by
  refine Duties.dutiful_quiet (Grip p books refs hands) ?_ ?_ within grip
  · intro c t member sound harmless before
    exact ⟨(quiet_exec sound (listed member) harmless).by_anyone,
      before.gentle (listed member) sound harmless⟩
  · intro r a t t' t'' _ before unswayed sound replied
    exact before.answered unswayed sound replied

theorem dutiful_get {k : World → Proc β} (rest : Consistent w → givingBack.Dutiful p Q (k w) w) :
    givingBack.Dutiful p Q (getWorld >>= k) w := rest

/-- A command that makes nothing necessary. -/
theorem dutiful_perform {c : Cmd} {k : Unit → Proc β}
    (quiet : Consistent w → c.Harmless w → givingBack.Quiet (some p) w (World.exec c w))
    (rest : Consistent w → c.Harmless w → givingBack.Dutiful p Q (k ()) (World.exec c w)) :
    givingBack.Dutiful p Q (perform c >>= k) w := by
  intro sound harmless
  have quiet := quiet sound harmless
  exact ⟨quiet.toKept, fun i needed => .inl (quiet.old i needed), rest sound harmless⟩

theorem dutiful_performGentle {c : Cmd} {k : Unit → Proc β} (listed : c.effect ∈ gentle)
    (grip : Grip p books refs hands w)
    (rest : Grip p books refs hands (World.exec c w) → givingBack.Dutiful p Q (k ())
      (World.exec c w)) :
    givingBack.Dutiful p Q (perform c >>= k) w :=
  dutiful_perform (fun sound harmless => (quiet_exec sound listed harmless).by_anyone)
    fun sound harmless => rest (grip.gentle listed sound harmless)

/-- The timers of an event that is not COMPLETED are cancelled, but for the task that runs. -/
theorem dutiful_cancelTimers {mrid : Mrid} {r : Ref} {k : Unit → Proc β}
    (stored : w.store.get? mrid = some r) (running : (w.record r).state ≠ .completed)
    (grip : Grip p books refs hands w)
    (rest : Grip p books refs hands (World.exec (.cancelTimers mrid) w) →
      givingBack.Dutiful p Q (k ()) (World.exec (.cancelTimers mrid) w)) :
    givingBack.Dutiful p Q (perform (.cancelTimers mrid) >>= k) w := by
  refine dutiful_perform (fun sound _ => (quiet_cancelTimers sound stored
    running).by_anyone) fun sound _ => rest ?_
  refine grip.moved ((quiet_cancelTimers sound stored running).rely p (Option.some_ne_none p))
    grip.current fun gone => ?_
  rcases mem_endTasks (w := w.toCore) gone with ended | child | before
  · have other := (List.mem_filter.mp ended).2
    rw [grip.current] at other
    simp at other
  · exact grip.task.apart child
  · exact grip.task.alive before

/-- What a live task has in hand is the only record under its mRID. -/
theorem Grip.sole (grip : Grip p books refs hands w) (sound : Consistent w) :
    ∀ r ∈ hands, r < w.store.next ∧ w.Sole r :=
  fun r member => sound.hands r ⟨p, grip.task.made, grip.task.alive, grip.held r member⟩

/-- Taking records in hand, or letting go of them. -/
theorem dutiful_hold (taken : List Ref) {k : Unit → Proc β} (grip : Grip p books refs hands w)
    (sole : ∀ r ∈ taken, r < w.store.next ∧ w.Sole r)
    (rest : Grip p books refs taken (World.exec (.hold taken) w) → Consistent w →
      givingBack.Dutiful p Q (k ()) (World.exec (.hold taken) w)) :
    givingBack.Dutiful p Q (perform (.hold taken) >>= k) w := by
  have made : w.current < w.nextPid := by
    rw [grip.current]
    exact grip.task.made
  refine dutiful_perform (fun sound _ => grip.current ▸ quiet_hold sound made sole)
    fun sound _ => rest ⟨grip.current, ?_, grip.refs, fun r member => ?_⟩ sound
  · exact ⟨grip.task.made, grip.task.alive, grip.task.apart, grip.task.booked⟩
  · change r ∈ Function.update w.held w.current taken p
    rwa [grip.current, Function.update_self]

/-- A transition, of whatever is stored under the mRID: the rest has to give back what an event
that ran is registered for. -/
theorem dutiful_transition {mrid : Mrid} {st : EventState} {k : Unit → Proc β}
    (grip : Grip p books refs hands w)
    (rest : Consistent w → ∀ r, w.store.get? mrid = some r →
      (∀ d, d ∈ w.modes.holders mrid → w.Runs r → st ≠ .active →
        (World.exec (.setState r st) w).Owner r d mrid →
          givingBack.TakenOn p (d, mrid) (k ()) (World.exec (.setState r st) w)) ∧
      (Grip p books refs hands (World.exec (.setState r st) w) →
        givingBack.Dutiful p Q (k ()) (World.exec (.setState r st) w))) :
    givingBack.Dutiful p Q (transition mrid st >>= k) w := by
  intro sound
  dsimp only [Co.ret_bind]
  split
  · trivial
  · rename_i r stored
    obtain ⟨taken, rest⟩ := rest sound r stored
    intro _ harmless
    obtain ⟨kept, needs⟩ := kept_setState sound stored harmless
    have moved := kept.rely p (Option.some_ne_none p)
    refine ⟨kept.by_anyone, fun i needed => ?_,
      rest (grip.moved moved grip.current grip.task.alive)⟩
    refine (needs i needed).imp_right ?_
    obtain ⟨d, m⟩ := i
    rintro ⟨rfl, runs, ends, owner⟩
    exact taken d needed.1 runs ends owner

end Steps

/-! ### What settles a ticket -/

/-- The fallback unregisters every device of the program. -/
theorem sees_fallback (r : Ref) (d : Href) (mrid : Mrid) (clear late) :
    givingBack.Sees (r, d, mrid) late (applyDdercFallback r clear) := by
  intro w owner
  have member : d ∈ w.uniqueDevices (w.record r).programHref :=
    List.mem_eraseDups.mpr owner.device
  have settles : givingBack.settles (r, d, mrid) (.unregister d (w.record r).mrid) := by
    rw [owner.own]
    exact .inl rfl
  have returns : ∀ d' ∈ w.uniqueDevices (w.record r).programHref,
      Within (perform (.unregister d' (w.record r).mrid)) [.unregister] [] := fun d' _ =>
    Within.perform (by simp [Cmd.effect])
  exact Reaches.bind (Reaches.forEach returns (fun q none_ => by cases none_) member
    (Or.inl settles)) _

/-- After a transition, `_handle_cancellation` of an event that ran unregisters its devices or has
a wind-down to wait for. -/
theorem sees_cancellationTail (r : Ref) (d : Href) (mrid : Mrid) {record : EventRecord}
    (ran : record.state = .active) :
    givingBack.Sees (r, d, mrid) True (cancellationTail r record) := by
  refine Or.inr (Reaches.after (m := postStartedDeviceLifecycle r .cancelled)
    (postStartedDeviceLifecycle_within r .cancelled) (fun _ _ => trivial) fun _ => ?_)
  unfold onlyIf
  rw [if_pos ran]
  intro w _
  change givingBack.Sees (r, d, mrid) True (if _ then _ else _)
  split
  · exact .inl (.inr ⟨_, rfl, rfl, rfl⟩)
  · exact sees_fallback r d mrid false True

/-- What is left of a completion. -/
theorem sees_completion (r : Ref) (d : Href) (mrid : Mrid) :
    givingBack.Sees (r, d, mrid) True (postStartedDeviceLifecycle r .completed >>= fun _ =>
      applyDdercFallback r false) :=
  Reaches.after (postStartedDeviceLifecycle_within r .completed) (fun _ _ => trivial) fun _ =>
    sees_fallback r d mrid false True

/-! ### Every task -/

/-- A coroutine of tasks in the table under `books` that know `refs`. -/
def Serves {α : Type} (books : Mrid → Prop) (refs : List (Ref × Mrid)) (m : Proc α) : Prop :=
  ∀ p w, Grip p books refs [] w → givingBack.Dutiful p (fun _ w' => Grip p books refs [] w') m w

section Tasks

variable {α β : Type} {books : Mrid → Prop} {refs : List (Ref × Mrid)} {p : Pid} {w : World}

theorem serves_gentle {m : Proc α} {es : List Effect} {ws : List Await} {E : Prop}
    (within : Within m es ws E) (listed : es ⊆ gentle) : Serves books refs m :=
  fun _ _ grip => dutiful_gentle within listed grip

theorem serves_bind {m : Proc α} {k : α → Proc β} (first : Serves books refs m)
    (rest : ∀ a, Serves books refs (k a)) : Serves books refs (m >>= k) :=
  fun p w grip => Duties.dutiful_bind ((first p w grip).mono fun a t grip' => rest a p t grip')

theorem serves_unlessClosed {m : Proc Unit} (h : Serves books refs m) :
    Serves books refs (unlessClosed m) := by
  intro p w grip
  refine dutiful_get fun _ => ?_
  split
  · exact grip
  · exact h p w grip

/-- The end of a supersession. -/
theorem dutiful_supersedeIfFully (map : ProgramDevices) {r : Ref} (sole : w.Sole r)
    (grip : Grip p books refs [] w) :
    givingBack.Dutiful p (fun _ w' => Grip p books refs [] w') (supersedeIfFully map r) w := by
  refine dutiful_get fun _ => ?_
  unfold onlyIf
  dsimp only
  split
  · refine dutiful_transition grip fun _ q stored => ?_
    obtain rfl := sole q stored
    refine ⟨fun d _ runs _ owner => ⟨(q, d, _), rfl, owner, .inl (.inr ?_)⟩, fun grip' => ?_⟩
    · rw [if_pos runs.1]
      exact sees_fallback q d _ false False
    · refine dutiful_cancelTimers (r := q) stored ?_ grip' fun grip'' => ?_
      · rw [record_setState_self]
        exact fun same => by cases same
      · split
        · exact dutiful_gentle (applyDdercFallback_within q false) (by decide) grip''
        · exact grip''
  · exact grip

theorem serves_supersede (map : ProgramDevices) (result : SupersessionResult) :
    Serves books refs (supersede map result) := by
  intro p w grip
  refine dutiful_get fun sound => ?_
  split
  · rename_i r by_ found _
    dsimp only
    split
    · exact grip
    · split
      · exact grip
      · have made := (sound.keyed _ r found).1
        have sole := sole_of_stored sound.keyed found
        have listed : (Cmd.addSuperseded r result.affectedDevices).effect ∈ gentle := by
          simp [Cmd.effect]
        have kept := bystander_exec (c := .addSuperseded r result.affectedDevices)
          (by simp [Cmd.effect]) w
        refine dutiful_performGentle listed grip fun grip₁ => ?_
        refine dutiful_hold [r] grip₁ ?_ fun grip₂ _ => ?_
        · intro q member
          rw [List.mem_singleton.mp member]
          exact ⟨kept.next ▸ made, (kept.sole_iff r).mpr sole⟩
        -- Across the responses the record stays in hand.
        refine Duties.dutiful_bind ((dutiful_gentle (postResponseForDevices_within _ _ _)
          (by decide) grip₂).mono fun _ w₃ grip₃ => ?_)
        refine dutiful_hold [] grip₃ (by simp) fun grip₄ sound₃ => ?_
        have sole₄ : (World.exec (.hold []) w₃).Sole r :=
          (grip₃.sole sound₃ r (by simp)).2
        unfold onlyIf
        split
        · refine dutiful_performGentle (by simp [Cmd.effect]) grip₄ fun grip₅ => ?_
          have kept' := bystander_exec (c := .addSupersededModes r result.affectedDevices
            result.affectedModes) (by simp [Cmd.effect]) (World.exec (.hold []) w₃)
          exact dutiful_supersedeIfFully map ((kept'.sole_iff r).mpr sole₄) grip₅
        · exact dutiful_supersedeIfFully map sole₄ grip₄
  · exact grip

theorem serves_runSupersession : Serves books refs runSupersession := by
  intro p w grip
  refine dutiful_get fun _ => ?_
  dsimp only
  split
  · exact grip
  · refine (Duties.dutiful_forEach (fun (_ : List SupersessionResult) (w' : World) =>
      Grip p books refs [] w') ?_ ?_).mono fun _ _ grip' => grip'
    · exact fun result _ t grip' => serves_supersede _ result p t grip'
    · exact grip

/-- Scheduling a timer for a record that the task knows. -/
theorem dutiful_schedule {timer : Timer} {hands : List Ref} {mrid : Mrid}
    (known : (timer.ref, mrid) ∈ refs) (grip : Grip p books refs hands w) :
    givingBack.Dutiful p (fun _ w' => Grip p books refs hands w') (perform (.schedule timer)) w := by
  intro sound _
  have quiet := quiet_schedule sound (grip.refs _ known).1
  exact ⟨quiet.toKept.by_anyone, fun i needed => .inl (quiet.old i needed),
    grip.moved (quiet.rely p (Option.some_ne_none p)) grip.current grip.task.alive⟩

theorem serves_schedule {timer : World → Timer} {r : Ref} {mrid : Mrid} (known : (r, mrid) ∈ refs)
    (own : ∀ w, (timer w).ref = r) :
    Serves books refs (getWorld >>= fun w => perform (.schedule (timer w))) :=
  fun _ w grip => dutiful_get fun _ => dutiful_schedule ((own w).symm ▸ known) grip

theorem serves_startEvent {r : Ref} {mrid : Mrid} (known : (r, mrid) ∈ refs) :
    Serves books refs (startEvent r) := by
  refine serves_bind serves_runSupersession fun _ => serves_unlessClosed ?_
  refine serves_bind (serves_gentle (applyAndRespond_within r) (by decide)) fun _ => ?_
  exact serves_unlessClosed (serves_schedule known fun _ => rfl)

theorem serves_handleNewScheduled {r : Ref} {mrid : Mrid} (known : (r, mrid) ∈ refs) :
    Serves books refs (handleNewScheduled r) := by
  intro p w grip
  refine dutiful_get fun _ => ?_
  refine serves_bind (serves_gentle (postResponse_within _ _ _ _) (by decide)) (fun _ => ?_) p w grip
  exact serves_unlessClosed (serves_schedule known fun _ => rfl)

/-- Opting out of a stored event that is not COMPLETED. -/
theorem dutiful_optOutEvent {r : Ref} (stored : w.store.get? (w.record r).mrid = some r)
    (running : (w.record r).state ≠ .completed) (grip : Grip p books refs [] w) :
    givingBack.Dutiful p (fun _ w' => Grip p books refs [] w') (optOutEvent r) w := by
  intro sound _
  obtain ⟨kept, needs⟩ := kept_setOptedOut sound r
  refine ⟨kept.by_anyone, fun i needed => (needs i needed).imp_right fun owner => ?_, ?_⟩
  · exact ⟨(r, i), rfl, owner, .inl fun _ _ => .inr (.inr (sees_fallback r i.1 i.2 true False))⟩
  · have events := bystander_exec (c := .setOptedOut r) (by simp [Cmd.effect]) w
    refine dutiful_get fun _ => ?_
    refine dutiful_performGentle (by simp [Cmd.effect])
      (grip.moved (kept.rely p (Option.some_ne_none p)) grip.current grip.task.alive)
      fun grip' => ?_
    refine dutiful_cancelTimers (r := r) ?_ ?_ grip' fun grip'' => ?_
    · change (World.exec (.setOptedOut r) w).store.get? _ = some r
      rw [events.get?, events.mrid]
      exact stored
    · change ((World.exec (.setOptedOut r) w).record r).state ≠ _
      rw [events.state]
      exact running
    · exact dutiful_gentle (applyDdercFallback_within r true) (by decide) grip''

theorem dutiful_handleLateDiscovery {r : Ref} {mrid : Mrid} (known : (r, mrid) ∈ refs)
    (stored : w.store.get? (w.record r).mrid = some r)
    (running : (w.record r).state ≠ .completed) (grip : Grip p books refs [] w) :
    givingBack.Dutiful p (fun _ w' => Grip p books refs [] w') (handleLateDiscovery r) w := by
  refine dutiful_get fun _ => ?_
  split
  · exact dutiful_optOutEvent stored running grip
  · refine serves_bind (serves_gentle (postResponse_within _ _ _ _) (by decide)) (fun _ => ?_)
      p w grip
    exact serves_unlessClosed (serves_startEvent known)

/-- Cancelling the only record under its mRID, by a call. -/
theorem dutiful_handleCancellation {r : Ref} {hands : List Ref} (made : r < w.store.next)
    (sole : w.Sole r) (grip : Grip p (fun _ => False) [] hands w) :
    givingBack.Dutiful p (fun _ w' => Grip p (fun _ => False) [] hands w') (handleCancellation r)
      w := by
  refine dutiful_get fun _ => ?_
  have known : Grip p (fun _ => False) [(r, (w.record r).mrid)] hands w :=
    ⟨grip.current, grip.task, by simp [made], grip.held⟩
  have forget : ∀ t, Grip p (fun _ => False) [(r, (w.record r).mrid)] hands t →
      Grip p (fun _ => False) [] hands t := fun t grip' =>
    ⟨grip'.current, grip'.task, by simp, grip'.held⟩
  refine Duties.Dutiful.mono ?_ fun _ t => forget t
  refine dutiful_transition known fun _ q stored => ?_
  obtain rfl := sole q stored
  refine ⟨fun d _ runs _ owner => ⟨(q, d, _), rfl, owner, .inr ⟨?_, ?_⟩⟩, fun grip' => ?_⟩
  · exact ⟨grip.task.made, grip.task.alive, grip.task.apart, fun m listed =>
      (grip.task.booked m listed).elim⟩
  · exact sees_cancellationTail q d _ runs.1
  · refine dutiful_cancelTimers (r := q) stored ?_ grip' fun grip'' => ?_
    · rw [record_setState_self]
      exact fun same => by cases same
    · refine Duties.dutiful_bind ((dutiful_gentle (postStartedDeviceLifecycle_within q _)
        (by decide) grip'').mono fun _ w₃ grip₃ => ?_)
      unfold onlyIf
      split
      · refine dutiful_get fun _ => ?_
        dsimp only
        split
        · exact dutiful_schedule List.mem_cons_self grip₃
        · exact dutiful_gentle (applyDdercFallback_within q false) (by decide) grip₃
      · exact grip₃

/-- Rule p), over records that are the only ones under their mRIDs. -/
theorem dutiful_cancelRemoved (now : Int) (rs : List Ref)
    (sole : ∀ r ∈ rs, r < w.store.next ∧ w.Sole r) (grip : Grip p (fun _ => False) [] [] w) :
    givingBack.Dutiful p (fun _ w' => Grip p (fun _ => False) [] [] w') (cancelRemoved now rs)
      w := by
  induction rs generalizing w with
  | nil => exact grip
  | cons r rest ih =>
      have later : ∀ q ∈ rest, q < w.store.next ∧ w.Sole q := fun q member =>
        sole q (List.mem_cons_of_mem r member)
      obtain ⟨made, alone⟩ := sole r List.mem_cons_self
      refine dutiful_get fun _ => ?_
      split
      · exact ih later grip
      · refine dutiful_hold rest grip later fun grip₁ _ => ?_
        refine Duties.dutiful_bind ((dutiful_handleCancellation
          (w := World.exec (.hold rest) w) made alone grip₁).mono
          fun _ w₂ grip₂ => ?_)
        refine dutiful_hold [] grip₂ (by simp) fun grip₃ sound₂ => ?_
        refine dutiful_get fun _ => ?_
        dsimp only
        split
        · exact grip₃
        · exact ih (grip₂.sole sound₂) grip₃

theorem serves_reconcileServed (ps : DerProgramState) (epoch : Nat) (now : Int) :
    Serves (fun _ => False) [] (reconcileServed ps epoch now) := by
  intro p w grip
  refine dutiful_get fun sound => ?_
  dsimp only
  split
  · refine dutiful_cancelRemoved now _ (fun r member => ?_) grip
    obtain ⟨⟨mrid, stored⟩, -⟩ := EventStore.mem_allActiveStates.mp (List.mem_filter.mp member).1
    exact ⟨(sound.keyed mrid r stored).1, sole_of_stored sound.keyed stored⟩
  · exact grip

theorem serves_stopIfClosed : Serves books refs stopIfClosed :=
  fun _ _ grip => dutiful_get fun _ => grip

theorem dutiful_knownControl {r : Ref} {derc : Dercontrol}
    (stored : w.store.get? derc.mrid = some r) (grip : Grip p (fun _ => False) [] [] w) :
    givingBack.Dutiful p (fun _ w' => Grip p (fun _ => False) [] [] w') (knownControl r derc)
      w := by
  have kept := bystander_exec (c := .refresh r derc ((derc.eventStatus.bind (·.dateTime)).getD 0))
    (by simp [Cmd.effect]) w
  intro sound harmless
  refine dutiful_performGentle (c := .refresh r derc _) (by simp [Cmd.effect]) grip
    (fun grip' => ?_) sound harmless
  refine dutiful_get fun _ => ?_
  split
  · refine Duties.dutiful_bind ((dutiful_handleCancellation ?_ ?_ grip').mono
      fun _ t grip'' => serves_stopIfClosed p t grip'')
    · exact kept.next ▸ (sound.keyed _ r stored).1
    · exact (kept.sole_iff r).mpr (sole_of_stored sound.keyed stored)
  · exact grip'

theorem serves_storeNew {q : Href} {derc : Dercontrol} {record : EventRecord}
    (running : record.state ≠ .completed) : Serves books [] (storeNew q derc record) := by
  intro p w grip
  refine dutiful_get fun _ => ?_
  dsimp only
  split
  · refine dutiful_performGentle (by simp [Cmd.effect]) grip fun grip' => ?_
    exact serves_bind (serves_gentle (postResponse_within _ _ _ _) (by decide))
      (fun _ => serves_stopIfClosed) p _ grip'
  · refine dutiful_performGentle (by simp [Cmd.effect]) grip fun grip₁ => ?_
    have own : (World.exec (.upsert record) w).record w.store.next = record :=
      Function.update_self _ _ _
    have stored : (World.exec (.upsert record) w).store.get? record.mrid = some w.store.next :=
      Dict.get?_set_self _ _ _
    have known : Grip p books [(w.store.next, record.mrid)] [] (World.exec (.upsert record) w) := by
      refine ⟨grip₁.current, grip₁.task, ?_, by simp⟩
      simp only [List.mem_singleton, forall_eq]
      exact ⟨Nat.lt_succ_self _, by rw [own]⟩
    refine Duties.Dutiful.mono ?_ fun _ t (grip' : Grip p books [(w.store.next, record.mrid)] [] t) =>
      (⟨grip'.current, grip'.task, by simp, by simp⟩ : Grip p books [] [] t)
    refine dutiful_performGentle (by simp [Cmd.effect]) known fun grip₂ => ?_
    refine Duties.dutiful_bind (Duties.Dutiful.mono ?_ fun _ t grip' => serves_stopIfClosed p t grip')
    unfold introduce
    split
    · exact serves_handleNewScheduled List.mem_cons_self p _ grip₂
    · refine dutiful_handleLateDiscovery List.mem_cons_self ?_ ?_ grip₂
      · change (World.exec (.upsert record) w).store.get?
          ((World.exec (.upsert record) w).record _).mrid = _
        rw [own, stored]
      · change ((World.exec (.upsert record) w).record _).state ≠ _
        rw [own]
        exact running

theorem serves_processControl (q : Href) (primacy : Nat) (now : Int) (derc : Dercontrol) :
    Serves (fun _ => False) [] (processControl q primacy now derc) := by
  refine serves_bind (serves_gentle (effectiveOffsets_within q derc) (by decide)) fun offsets => ?_
  intro p w grip
  refine dutiful_get fun _ => ?_
  split
  · rename_i r stored
    exact dutiful_knownControl stored grip
  · refine dutiful_get fun _ => ?_
    split
    · exact grip
    · split
      · split
        · exact grip
        · exact serves_bind (serves_gentle (postResponse_within _ _ _ _) (by decide))
            (fun _ => serves_stopIfClosed) p w grip
      · refine serves_storeNew ?_ p w grip
        change (if _ then EventState.active else EventState.scheduled) ≠ _
        split <;> exact fun same => by cases same

theorem serves_processServed (ps : DerProgramState) (epoch primacy : Nat) (now : Int)
    (i rounds : Nat) :
    Serves (fun _ => False) [] (processServed ps epoch primacy now i rounds) := by
  induction rounds generalizing i with
  | zero => exact fun _ _ grip => grip
  | succ rounds ih =>
      intro p w grip
      refine dutiful_get fun _ => ?_
      split
      · exact grip
      · refine serves_bind (serves_processControl _ _ _ _) (fun stop => ?_) p w grip
        split
        · exact fun _ _ grip' => grip'
        · exact ih (i + 1)

theorem serves_finishPoll (q : Href) (now : Int) : Serves books refs (finishPoll q now) := by
  refine serves_bind serves_runSupersession fun _ => serves_unlessClosed ?_
  have within : Within (do
      perform (.pruneStore now)
      perform (.pruneOffsets now)
      perform (.pruneResponses now)
      applyInitialDderc q) [.prune, .issue, .recordDefault] [.gather] := by
    refine Within.bind (Within.perform (by simp [Cmd.effect])) fun _ => ?_
    refine Within.bind (Within.perform (by simp [Cmd.effect])) fun _ => ?_
    refine Within.bind (Within.perform (by simp [Cmd.effect])) fun _ => ?_
    exact (applyInitialDderc_within q).mono (by decide) (by decide)
  exact serves_gentle within (by decide)

theorem serves_processControls (q : Href) (room : Nat) :
    Serves (fun _ => False) [] (processControls q room) := by
  refine serves_unlessClosed fun p w grip => dutiful_get fun _ => ?_
  split
  · exact grip
  · refine serves_bind (serves_processServed _ _ _ _ _ _) (fun stop => ?_) p w grip
    split
    · exact fun _ _ grip' => grip'
    · refine serves_bind (serves_reconcileServed _ _ _) fun stop => ?_
      split
      · exact fun _ _ grip' => grip'
      · exact serves_finishPoll q _

/-- A timer's task. A record that has not ended is the only one under its mRID, so what the task
ends is its own event. -/
theorem serves_fireTimer (callback : Callback) (r : Ref) (mrid : Mrid) :
    Serves (· = mrid) [(r, mrid)] (fireTimer callback r) := by
  have ready : Serves (· = mrid) [(r, mrid)] awaitStateReady :=
    serves_gentle awaitStateReady_within (by simp)
  intro p w grip
  refine dutiful_get fun _ => ?_
  split
  · exact grip
  · split
    · refine Duties.dutiful_bind ((ready p w grip).mono fun _ w₁ grip₁ => ?_)
      refine dutiful_get fun sound => ?_
      split
      · exact grip₁
      · rename_i scheduled
        have live : w₁.Live r := by
          unfold Core.Live
          rw [not_not.mp scheduled]
          rfl
        refine dutiful_transition grip₁ fun _ q stored => ?_
        obtain rfl := sound.sole r live q stored
        refine ⟨fun d _ _ other => absurd rfl other, fun grip₂ => dutiful_get fun _ => ?_⟩
        split
        · refine dutiful_optOutEvent ?_ ?_ grip₂
          · rw [mrid_setState]
            exact stored
          · rw [record_setState_self]
            exact fun same => by cases same
        · exact serves_startEvent List.mem_cons_self p _ grip₂
    · refine Duties.dutiful_bind ((ready p w grip).mono fun _ w₁ grip₁ => ?_)
      refine dutiful_get fun sound => ?_
      split
      · exact grip₁
      · rename_i running
        have live : w₁.Live r := by
          unfold Core.Live
          rw [not_not.mp running]
          rfl
        refine dutiful_transition grip₁ fun _ q stored => ?_
        obtain rfl := sound.sole r live q stored
        refine ⟨fun d _ _ _ owner => ⟨(q, d, _), rfl, owner, .inr ⟨?_, sees_completion q d _⟩⟩,
          fun grip₂ => ?_⟩
        · refine ⟨grip₁.task.made, grip₁.task.alive, grip₁.task.apart, fun m listed => ?_⟩
          rw [record_setState_self]
          refine ⟨?_, rfl⟩
          rw [grip₁.task.booked m listed]
          exact (grip₁.refs _ List.mem_cons_self).2.symm
        · refine Duties.dutiful_bind ((dutiful_gentle (postStartedDeviceLifecycle_within q _)
            (by decide) grip₂).mono fun _ w₃ grip₃ => ?_)
          exact dutiful_gentle (applyDdercFallback_within q false) (by decide) grip₃
    · exact dutiful_gentle (applyDdercFallback_within r false) (by decide) grip

/-- The removal of a program none of whose running events has entries. -/
theorem dutiful_cancelProgram {q : Href} (harmless : Harmless w (.start p (.cancelProgram q)))
    (grip : Grip p (fun _ => False) [] [] w) :
    givingBack.Dutiful p (fun _ w' => Grip p (fun _ => False) [] [] w') (cancelProgram q) w := by
  refine dutiful_get fun sound => ?_
  refine (Duties.dutiful_forEach (fun (rest : List Ref) (w' : World) =>
    Grip p (fun _ => False) [] [] w' ∧ rest.Nodup ∧ w'.modes = w.modes ∧
      (∀ r ∈ rest, w'.record r = w.record r) ∧
      ∀ r ∈ rest, w'.store.get? (w.record r).mrid = some r ∧
        (w.Runs r → w.modes.holders (w.record r).mrid = [])) ?_ ?_).mono fun _ _ kept => kept.1
  · rintro r rest w₁ ⟨grip₁, distinct, modes, same, stored⟩
    obtain ⟨free, distinct⟩ := List.nodup_cons.mp distinct
    obtain ⟨found, clear⟩ := stored r List.mem_cons_self
    refine dutiful_transition grip₁ fun _ r' found' => ?_
    obtain rfl := Option.some.inj (found.symm.trans found')
    refine ⟨fun d entry runs _ _ => ?_, fun grip₂ => ?_⟩
    · rw [modes, clear ?_] at entry
      · cases entry
      · rw [Core.Runs, same r List.mem_cons_self] at runs
        exact runs
    · refine dutiful_cancelTimers (r := r) found ?_ grip₂ fun grip₃ => ?_
      · rw [record_setState_self]
        exact fun wrong => by cases wrong
      · refine ⟨grip₃, distinct, modes, fun r' member => ?_, fun r' member =>
          stored r' (List.mem_cons_of_mem r member)⟩
        have other : r' ≠ r := by
          rintro rfl
          exact free member
        exact (record_setState_ne w₁ .cancelled other).trans
          (same r' (List.mem_cons_of_mem r member))
  · refine ⟨grip, (nodup_allActiveStates sound.keyed).filter _, rfl, fun _ _ => rfl,
      fun r member => ?_⟩
    obtain ⟨listed, program⟩ := List.mem_filter.mp member
    obtain ⟨⟨mrid, found⟩, -⟩ := EventStore.mem_allActiveStates.mp listed
    refine ⟨?_, fun runs => ?_⟩
    · change w.store.get? (w.store.object r).mrid = some r
      rw [(sound.keyed mrid r found).2, found]
    · refine harmless r (List.mem_filter.mpr ⟨?_, ?_⟩) (by simpa using program)
      · exact EventStore.mem_byState.mpr ⟨⟨mrid, found⟩, runs.1⟩
      · rw [runs.2]
        rfl

/-- Opting out of several events in a row, each of which falls back afterwards. -/
theorem dutiful_optOutAll {all rest : List Ref} (mrid : Ref → Mrid) (listed : ∀ r ∈ rest, r ∈ all)
    (stored : ∀ r ∈ rest, w.store.get? (mrid r) = some r ∧ (w.record r).state ≠ .completed)
    (grip : Grip p (fun _ => False) [] [] w) :
    givingBack.Dutiful p (fun _ w' => Grip p (fun _ => False) [] [] w')
      ((Co.forEach rest fun r => do
        perform (.setOptedOut r)
        perform (.cancelTimers (mrid r))) >>= fun _ =>
          Co.forEach all fun r => applyDdercFallback r true) w := by
  have falls : Within (Co.forEach all fun r => applyDdercFallback r true) fallbackEffects
      [.gather] := Within.forEach fun r _ => applyDdercFallback_within r true
  induction rest generalizing w with
  | nil => exact dutiful_gentle falls (by decide) grip
  | cons r rest ih =>
      obtain ⟨found, running⟩ := stored r List.mem_cons_self
      have events := bystander_exec (c := .setOptedOut r) (by simp [Cmd.effect]) w
      intro sound _
      obtain ⟨kept, needs⟩ := kept_setOptedOut sound r
      have grip₁ : Grip p (fun _ => False) [] [] (World.exec (.setOptedOut r) w) :=
        grip.moved (kept.rely p (Option.some_ne_none p)) grip.current grip.task.alive
      refine ⟨kept.by_anyone, fun i needed => (needs i needed).imp_right fun owner => ?_, ?_⟩
      · refine ⟨(r, i), rfl, owner, .inr ⟨?_, .inr ?_⟩⟩
        · exact ⟨grip₁.task.made, grip₁.task.alive, grip₁.task.apart, fun m booked =>
            (grip₁.task.booked m booked).elim⟩
        · have returns : Within (Co.forEach rest fun r => do
              perform (.setOptedOut r)
              perform (.cancelTimers (mrid r))) [.optOut, .cancelTimers] [] :=
            Within.forEach fun r _ => Within.bind (Within.perform (by simp [Cmd.effect]))
              fun _ => Within.perform (by simp [Cmd.effect])
          refine Reaches.after returns (fun _ _ => trivial) fun _ => ?_
          exact Reaches.forEach (fun q _ => applyDdercFallback_within q true) (fun _ _ => trivial)
            (listed r List.mem_cons_self) (sees_fallback r i.1 i.2 true True)
      · have stored' : (World.exec (.setOptedOut r) w).store.get? (mrid r) = some r := by
          rw [events.get?]
          exact found
        refine dutiful_cancelTimers (k := fun _ => _) stored' ?_ grip₁
          fun grip₂ => ih (fun q member => listed q (List.mem_cons_of_mem r member))
            (fun q member => ?_) grip₂
        · rw [events.state]
          exact running
        · obtain ⟨found', running'⟩ := stored q (List.mem_cons_of_mem r member)
          refine ⟨(events.get? _).trans found', ?_⟩
          change ((World.exec (.setOptedOut r) w).record q).state ≠ _
          rw [events.state]
          exact running'

/-- Comms loss: what is opted out of in the second loop falls back in the third. -/
theorem dutiful_enterCommsLoss (grip : Grip p (fun _ => False) [] [] w) :
    givingBack.Dutiful p (fun _ w' => Grip p (fun _ => False) [] [] w') enterCommsLoss w := by
  refine dutiful_get fun sound => ?_
  refine Duties.dutiful_bind ((Duties.dutiful_forEach (fun (_ : List Ref) (w' : World) =>
    Grip p (fun _ => False) [] [] w' ∧ w'.store = w.store) ?_ ⟨grip, rfl⟩).mono ?_)
  · rintro r _ w₁ ⟨grip₁, same⟩
    exact dutiful_performGentle (k := fun _ => pure ()) (by simp [Cmd.effect]) grip₁
      fun grip₂ => ⟨grip₂, same⟩
  · rintro _ w₁ ⟨grip₁, same⟩
    refine dutiful_optOutAll (fun r => (w.record r).mrid) (fun _ member => member)
      (fun r member => ?_) grip₁
    obtain ⟨⟨mrid, found⟩, active⟩ := EventStore.mem_byState.mp (List.mem_filter.mp member).1
    have running : (w₁.record r).state = .active := by
      rw [Core.record, same]
      exact active
    refine ⟨?_, ?_⟩
    · change w₁.store.get? (w.store.object r).mrid = some r
      rw [same, (sound.keyed mrid r found).2, found]
    · rw [running]
      decide

end Tasks

/-! ### Courses -/

/-- A device's own task of a dispatch. -/
theorem dutiful_child {p : Pid} {w : World} (r : Ref) (d : Href) :
    givingBack.Dutiful p (fun _ _ => True) (dispatchAndReport r d) w := by
  have children : childEffects ⊆ gentle := by decide
  refine Duties.dutiful_quiet (fun _ => True) ?_ (fun _ _ _ _ _ _ _ _ _ _ => trivial)
    (dispatchAndReport_within r d) trivial
  exact fun c t member sound harmless _ =>
    ⟨(quiet_exec sound (children member) harmless).by_anyone, trivial⟩

theorem givingBack_sound : givingBack.Sound where
  begins sound begun := (quiet_begins sound begun).by_anyone
  replies sound replied := (quiet_reply sound replied).by_anyone
  ext := by
    rintro e w w' sound harmless ⟨⟩
    exact quiet_ext sound harmless
  jobs := by
    intro p j w w' sound harmless begun
    have current : w'.current = p := (begins_task begun).1
    have call : (∀ v : Core, v.begins p j =
        if p = v.nextPid then some { v with nextPid := p + 1, current := p } else none) →
        Grip p (fun _ => False) [] [] w' := fun outside =>
      ⟨current, begins_call sound begun outside, by simp, by simp⟩
    cases j with
    | processControls q room =>
        exact (serves_processControls q room p w' (call fun _ => rfl)).mono fun _ _ _ => trivial
    | cancelProgram q =>
        have same : Harmless w' (.start p (.cancelProgram q)) := by
          obtain ⟨_, _, _, rfl⟩ := begins_spec begun
          exact harmless
        exact (dutiful_cancelProgram same (call fun _ => rfl)).mono fun _ _ _ => trivial
    | enterCommsLoss =>
        exact (dutiful_enterCommsLoss (call fun _ => rfl)).mono fun _ _ _ => trivial
    | shutdown =>
        have same : Harmless w' (.start p .shutdown) := by
          obtain ⟨_, _, _, rfl⟩ := begins_spec begun
          exact harmless
        exact dutiful_perform (k := fun _ => pure ())
          (fun sound' _ => (quiet_close sound' same).by_anyone) fun _ _ => trivial
    | timer callback r =>
        obtain ⟨made, task⟩ := begins_timer sound begun
        have grip : Grip p (· = (w'.record r).mrid) [(r, (w'.record r).mrid)] [] w' :=
          ⟨current, task, by simp [made], by simp⟩
        exact (serves_fireTimer callback r _ p w' grip).mono fun _ _ _ => trivial
    | dispatchAndReport r d => exact dutiful_child r d

theorem Core.Fresh.sound {w : Core} (fresh : w.Fresh) : Consistent (start w).state where
  booked := by
    refine ⟨fun m q listed => ?_, fun q child => ?_, fun q gone => ?_, fun q t sleeps => ?_⟩
    · change q ∈ w.timers.getD m [] at listed
      rw [fresh.timers] at listed
      cases listed
    · change q ∈ w.children.keys at child
      rw [fresh.children] at child
      cases child
    · change q ∈ w.cancelled at gone
      rw [fresh.cancelled] at gone
      cases gone
    · change w.sleeping.get? q = some t at sleeps
      rw [fresh.sleeping] at sleeps
      cases sleeps
  keyed := fresh.keyed
  unmade := fresh.settled.unmade
  sole := fresh.settled.sole
  hands := by
    rintro r ⟨q, -, -, member⟩
    cases member
  idle _ _ := rfl

theorem Core.Fresh.seen {w : Core} (fresh : w.Fresh) : givingBack.Seen (start w) where
  inv := fresh.sound
  parked := start_parked w
  seen := by
    rintro ⟨d, mrid⟩ ⟨entry, -⟩
    change d ∈ w.modes.holders mrid at entry
    rw [fresh.modes] at entry
    cases entry
  dutiful _ _ found := by cases found

theorem seen_of_harmless {w : Core} (fresh : w.Fresh) {c : Config ProcSig}
    (course : processor.Course Harmless (fun c w => c.Harmless w) (start w) c) :
    givingBack.Seen c :=
  Duties.seen_of_course givingBack_sound fresh.seen course

/-- Wherever no task is left that can go on, every entry of the tracker goes with a running
event. -/
theorem provides_of_quiet {c : Config ProcSig} (seen : givingBack.Seen c)
    (quiet : ∀ q k, c.pool q = some k → q ∈ c.state.cancelled) {d : Href} {mrid : Mrid}
    (entry : d ∈ c.state.modes.holders mrid) : c.state.Provides d mrid := by
  by_contra needed
  obtain ⟨t, -, -, q, k, found, fit, -⟩ := seen.seen (d, mrid) ⟨entry, needed⟩
  exact fit.alive (quiet q k found)

/-- In every course of harmless steps, wherever no task is left that can go on, every entry of the
tracker belongs to a stored event that is ACTIVE and not opted out. -/
theorem registered_running {w : Core} (fresh : w.Fresh) {c : Config ProcSig}
    (course : processor.Course Harmless (fun c w => c.Harmless w) (start w) c)
    (quiet : ∀ q k, c.pool q = some k → q ∈ c.state.cancelled) {d : Href} {mrid : Mrid}
    (entry : d ∈ c.state.modes.holders mrid) :
    ∃ r, c.state.store.get? mrid = some r ∧ (c.state.record r).state = .active ∧
      (c.state.record r).optedOut = false := by
  obtain ⟨r, -, stored, runs⟩ := provides_of_quiet (seen_of_harmless fresh course) quiet entry
  exact ⟨r, stored, runs⟩

/-! ### An event that is registered, and the removal of its program -/

/-- A program with a running event, and its device. -/
def registeredCore : Core :=
  plainCore [plainProgram "/derp/1" 1 [plainControl 1 0 1000 .opModFixedW]]
    [("/derp/1", "/edev/1")]

/-- The event is met and put on the device. -/
def registeringRun : List (Label processor) :=
  let go := fun pid => Label.resume pid Request.success
  [.start 1 (.processControls "/derp/1" 0), go 1, .start 2 (.dispatchAndReport 0 "/edev/1"), go 2,
    go 2, go 1]

def registeredConfig : Config ProcSig :=
  (processor.exec (start registeredCore) registeringRun).getD (start registeredCore)

theorem registeredConfig_running :
    (∀ q k, registeredConfig.pool q = some k → q ∈ registeredConfig.state.cancelled) ∧
      "/edev/1" ∈ registeredConfig.state.modes.holders 1 ∧
      ∃ r, registeredConfig.state.store.get? 1 = some r ∧
        (registeredConfig.state.record r).state = .active ∧
        (registeredConfig.state.record r).optedOut = false := by
  have executed : processor.exec (start registeredCore) registeringRun = some registeredConfig :=
    processor.exec_getD (by decide)
  have quiet : ∀ q k, registeredConfig.pool q = some k → q ∈ registeredConfig.state.cancelled := by
    intro q k found
    rw [System.idle_of_exec executed (fun _ => rfl) (by decide) q] at found
    cases found
  have course : processor.Course Harmless (fun (c : Cmd) (w : World) => c.Harmless w)
      (start registeredCore) registeredConfig := System.course_of_exec (by decide) executed
  have entry : "/edev/1" ∈ registeredConfig.state.modes.holders 1 := by decide
  exact ⟨quiet, entry, registered_running (plainCore_fresh _ _) course quiet entry⟩

/-- The program is removed. -/
def leftoverConfig : Config ProcSig :=
  (processor.exec registeredConfig [.start 4 (.cancelProgram "/derp/1")]).getD registeredConfig

/-- The event is cancelled, and its device still registered for it. -/
theorem removal_leaves_entry :
    registeredCore.Fresh ∧ processor.Run (fun _ _ _ => True) (start registeredCore) leftoverConfig ∧
      (∀ q, leftoverConfig.pool q = none) ∧ "/edev/1" ∈ leftoverConfig.state.modes.holders 1 ∧
      ¬ ∃ r, leftoverConfig.state.store.get? 1 = some r ∧
        (leftoverConfig.state.record r).state = .active ∧
        (leftoverConfig.state.record r).optedOut = false := by
  have first : processor.exec (start registeredCore) registeringRun = some registeredConfig :=
    processor.exec_getD (by decide)
  have second : processor.exec registeredConfig [.start 4 (.cancelProgram "/derp/1")] =
      some leftoverConfig := processor.exec_getD (by decide)
  have idle : ∀ q, registeredConfig.pool q = none :=
    System.idle_of_exec first (fun _ => rfl) (by decide)
  refine ⟨plainCore_fresh _ _, (processor.run_of_exec first).trans (processor.run_of_exec second),
    System.idle_of_exec second idle (by decide), by decide, ?_⟩
  rintro ⟨r, stored, active, -⟩
  have only : leftoverConfig.state.store.get? 1 = some 0 := by decide
  obtain rfl := Option.some.inj (only.symm.trans stored)
  revert active
  decide

end Py20305
