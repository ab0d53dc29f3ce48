import Py20305.Events.Terminal
import Py20305.Lib.Duties

/-!
Who gives a registration back.

Devices are registered for an event when it starts, and unregistered by the fallback at its end.
Not every end has a fallback, and a fallback goes by the devices that the program has by then, so
registrations are left behind. `Harmless` says which steps and commands do not leave any behind:
those of a program's removal with nothing registered, of a cancellation that has no wind-down to
wait for, and so on.

The duties of a course of harmless steps: an entry whose event does not run is needed to go
(`giving_back`), and the task that ended the event sees to it.
-/

namespace Py20305

open Coroutine Co

/-! ### Entries -/

namespace ActiveModeTracker

/-- The devices with an entry for the event. -/
def holders (t : ActiveModeTracker) (mrid : Mrid) : List Href :=
  t.registry.keys.filter fun d => mrid ∈ (t.registry.getD d Dict.empty).keys

variable {t : ActiveModeTracker} {d e : Href} {mrid q : Mrid}

theorem mem_holders : d ∈ t.holders mrid ↔ mrid ∈ (t.registry.getD d Dict.empty).keys := by
  simp only [holders, List.mem_filter, decide_eq_true_eq, and_iff_right_iff_imp]
  intro entry
  by_contra absent
  rw [← Dict.get?_eq_none_iff] at absent
  simp [Dict.getD, absent, Dict.keys, Dict.empty] at entry

theorem mem_holders_register (modes : Finset Mode) :
    e ∈ (t.register d mrid modes).holders q ↔ (e = d ∧ q = mrid) ∨ e ∈ t.holders q := by
  simp only [mem_holders, register, Dict.getD, Dict.get?_set]
  by_cases device : e = d
  · subst device
    simp [Dict.mem_keys_set]
  · simp [device]

theorem mem_holders_unregister :
    e ∈ (t.unregister d mrid).holders q ↔ ¬ (e = d ∧ q = mrid) ∧ e ∈ t.holders q := by
  simp only [mem_holders, unregister, Dict.getD, Dict.get?_modify]
  by_cases device : e = d
  · subst device
    cases t.registry.get? e with
    | none => simp [Dict.keys, Dict.empty]
    | some events => simp [Dict.mem_keys_erase]
  · simp [device]

end ActiveModeTracker

/-! ### What leaves nothing behind -/

/-- The event runs. -/
def Core.Runs (w : Core) (r : Ref) : Prop :=
  (w.record r).state = .active ∧ (w.record r).optedOut = false

instance (w : Core) (r : Ref) : Decidable (w.Runs r) := inferInstanceAs (Decidable (_ ∧ _))

/-- A live task has the record in hand. -/
def World.InHand (w : World) (r : Ref) : Prop :=
  ∃ q < w.nextPid, q ∉ w.cancelled ∧ r ∈ w.held q

instance (w : World) (r : Ref) : Decidable (w.InHand r) := by
  unfold World.InHand
  infer_instance

/-- A command that leaves no entry behind, nor takes away what an entry is given back by. -/
def Cmd.Harmless (w : World) : Cmd → Prop
  -- Only running events are registered, on devices of theirs.
  | register d mrid _ =>
      ∃ r ∈ w.store.get? mrid, w.Runs r ∧ d ∈ w.devicesOf (w.record r).programHref
  -- A completed event gives its entries back itself, unless it is ended once more.
  | setState r _ => (w.record r).state = .completed → w.modes.holders (w.record r).mrid = []
  -- An mRID comes back only after its events have ended and are out of everybody's hands.
  | upsert record => w.modes.holders record.mrid = [] ∧
      ∀ r < w.store.next, (w.record r).mrid = record.mrid →
        (w.record r).state.isTerminal = true ∧ ¬ w.InHand r
  | pruneStore now => ∀ e ∈ w.store.events.entries,
      w.Runs e.2 → w.modes.holders e.1 ≠ [] → ¬ (w.record e.2).end + 60 < now
  -- Nothing happens at the end of a wind-down.
  | schedule timer =>
      timer.callback = .windDown → w.modes.holders (w.record timer.ref).mrid = []
  | _ => True

instance (w : World) (c : Cmd) : Decidable (c.Harmless w) := by
  unfold Cmd.Harmless
  split <;> infer_instance

/-- A step that leaves no entry behind by itself. -/
def Harmless (w : World) : Label processor → Prop
  | .start _ (.cancelProgram p) => ∀ r ∈ w.activeEvents,
      (w.record r).programHref = p → w.modes.holders (w.record r).mrid = []
  -- The shutdown ends the tasks of the timers, with them those of completed events.
  | .start _ .shutdown => ∀ r < w.store.next, (w.record r).state = .completed →
      (∀ q ∈ w.store.get? (w.record r).mrid, q = r) → w.modes.holders (w.record r).mrid = []
  | .ext (.discovered state _ _) => ∀ r < w.store.next,
      (∀ q ∈ w.store.get? (w.record r).mrid, q = r) → ∀ d ∈ w.modes.holders (w.record r).mrid,
        d ∈ w.devicesOf (w.record r).programHref →
          d ∈ state.deviceMapping.devices (w.record r).programHref
  | _ => True

instance (w : World) (l : Label processor) : Decidable (Harmless w l) := by
  unfold Harmless
  split <;> infer_instance

/-! ### Tasks -/

/-- Task `q` was made, was not cancelled, is nobody's child and is in the table of timers only
under the mRIDs `books`. -/
structure Core.Task (w : Core) (q : Pid) (books : Mrid → Prop) : Prop where
  made : q < w.nextPid
  alive : q ∉ w.cancelled
  apart : q ∉ w.children.keys
  booked : ∀ mrid, q ∈ w.timers.getD mrid [] → books mrid

/-- Tasks in the tables were made, and a sleeping timer is in the table under its event only. -/
structure Booked (w : Core) : Prop where
  timers : ∀ mrid, ∀ q ∈ w.timers.getD mrid [], q < w.nextPid
  children : ∀ q ∈ w.children.keys, q < w.nextPid
  cancelled : ∀ q ∈ w.cancelled, q < w.nextPid
  asleep : ∀ q t, w.sleeping.get? q = some t →
    t.ref < w.store.next ∧ w.Task q (· = (w.record t.ref).mrid)

/-- What a change does to tasks: no task made before is booked anew or given a parent. -/
structure Tasks (w w' : Core) : Prop where
  nextPid : w.nextPid ≤ w'.nextPid
  timers : ∀ mrid, ∀ q ∈ w'.timers.getD mrid [],
    q ∈ w.timers.getD mrid [] ∨ w.nextPid ≤ q ∧ q < w'.nextPid
  children : ∀ q ∈ w'.children.keys, q ∈ w.children.keys ∨ w.nextPid ≤ q ∧ q < w'.nextPid
  cancelled : ∀ q ∈ w.cancelled, q ∈ w'.cancelled
  gone : ∀ q ∈ w'.cancelled, q ∈ w.cancelled ∨ q < w.nextPid
  asleep : ∀ q t, w'.sleeping.get? q = some t →
    w.sleeping.get? q = some t ∧ (q ∈ w'.cancelled → q ∈ w.cancelled) ∨
      t.ref < w.store.next ∧ w'.Task q (· = (w.record t.ref).mrid)

section Tables

variable {w w' : Core}

theorem Core.Task.moved {q : Pid} {books : Mrid → Prop} (task : w.Task q books)
    (tasks : Tasks w w') (alive : q ∉ w'.cancelled) : w'.Task q books where
  made := task.made.trans_le tasks.nextPid
  alive := alive
  apart child := by
    rcases tasks.children q child with before | new
    · exact task.apart before
    · exact absurd task.made (Nat.not_lt.mpr new.1)
  booked mrid listed := by
    rcases tasks.timers mrid q listed with before | new
    · exact task.booked mrid before
    · exact absurd task.made (Nat.not_lt.mpr new.1)

theorem Booked.moved (booked : Booked w) (tasks : Tasks w w') (next : w.store.next ≤ w'.store.next)
    (mrid : ∀ r < w.store.next, (w'.record r).mrid = (w.record r).mrid) : Booked w' where
  timers m q listed := by
    rcases tasks.timers m q listed with before | new
    · exact (booked.timers m q before).trans_le tasks.nextPid
    · exact new.2
  children q child := by
    rcases tasks.children q child with before | new
    · exact (booked.children q before).trans_le tasks.nextPid
    · exact new.2
  cancelled q gone := by
    rcases tasks.gone q gone with before | made
    · exact (booked.cancelled q before).trans_le tasks.nextPid
    · exact made.trans_le tasks.nextPid
  asleep q t sleeps := by
    rcases tasks.asleep q t sleeps with ⟨before, alive⟩ | ⟨made, task⟩
    · obtain ⟨made, task⟩ := booked.asleep q t before
      refine ⟨made.trans_le next, ?_⟩
      rw [mrid t.ref made]
      exact task.moved tasks fun gone => task.alive (alive gone)
    · rw [mrid t.ref made]
      exact ⟨made.trans_le next, task⟩

/-- A change that leaves the tables as they are. -/
theorem Tasks.of_same (nextPid : w.nextPid ≤ w'.nextPid) (timers : w'.timers = w.timers)
    (children : w'.children = w.children) (cancelled : w'.cancelled = w.cancelled)
    (sleeping : ∀ q t, w'.sleeping.get? q = some t → w.sleeping.get? q = some t) :
    Tasks w w' where
  nextPid := nextPid
  timers _ _ listed := .inl (timers ▸ listed)
  children _ child := .inl (children ▸ child)
  cancelled _ gone := cancelled ▸ gone
  gone _ gone := .inl (cancelled ▸ gone)
  asleep q t sleeps := .inl ⟨sleeping q t sleeps, fun gone => cancelled ▸ gone⟩

theorem keys_of_filter {κ ν : Type} [DecidableEq κ] {d : Dict κ ν} {p : κ → ν → Bool} {k : κ}
    (member : k ∈ (d.filter p).keys) : k ∈ d.keys := by
  obtain ⟨v, found⟩ := (Dict.mem_keys_iff _ _).mp member
  rw [Dict.get?_filter] at found
  exact (Dict.mem_keys_iff _ _).mpr ⟨v, (Option.filter_eq_some_iff.mp found).1⟩

/-- The tasks that `endTasks` ends. -/
theorem mem_endTasks {ended : List Pid} {q : Pid} (gone : q ∈ (w.endTasks ended).cancelled) :
    q ∈ ended ∨ q ∈ w.children.keys ∨ q ∈ w.cancelled := by
  rcases List.mem_append.mp gone with now | before
  · refine (List.mem_append.mp now).imp_right fun child => .inl ?_
    obtain ⟨e, member, rfl⟩ := List.mem_map.mp child
    exact List.mem_map.mpr ⟨e, (List.mem_filter.mp member).1, rfl⟩
  · exact .inr (.inr before)

theorem tasks_endTasks (booked : Booked w) {ended : List Pid} (made : ∀ q ∈ ended, q < w.nextPid) :
    Tasks w (w.endTasks ended) where
  nextPid := le_rfl
  timers _ _ listed := .inl listed
  children q child := .inl (keys_of_filter child)
  cancelled q gone := List.mem_append_right _ gone
  gone q gone := by
    rcases mem_endTasks gone with now | child | before
    · exact .inr (made q now)
    · exact .inr (booked.children q child)
    · exact .inl before
  asleep q t sleeps := by
    simp only [Core.endTasks, Dict.get?_filter] at sleeps
    obtain ⟨before, stays⟩ := Option.filter_eq_some_iff.mp sleeps
    refine .inl ⟨before, fun gone => ?_⟩
    rcases List.mem_append.mp gone with now | before
    · exact absurd now (by simpa using stays)
    · exact before

theorem Tasks.fewer {v : Core} (tasks : Tasks w v) (timers : ∀ mrid, ∀ q ∈ w'.timers.getD mrid [],
      q ∈ v.timers.getD mrid []) (nextPid : w'.nextPid = v.nextPid)
    (children : w'.children = v.children) (cancelled : w'.cancelled = v.cancelled)
    (sleeping : w'.sleeping = v.sleeping) : Tasks w w' where
  nextPid := nextPid ▸ tasks.nextPid
  timers mrid q listed := nextPid ▸ tasks.timers mrid q (timers mrid q listed)
  children q child := nextPid ▸ tasks.children q (children ▸ child)
  cancelled q gone := cancelled ▸ tasks.cancelled q gone
  gone q gone := tasks.gone q (cancelled ▸ gone)
  asleep q t sleeps := by
    rw [sleeping] at sleeps
    refine (tasks.asleep q t sleeps).imp (And.imp_right fun alive gone => ?_)
      (And.imp_right fun task => ?_)
    · exact alive (cancelled ▸ gone)
    · exact ⟨nextPid ▸ task.made, cancelled ▸ task.alive, children ▸ task.apart,
        fun mrid listed => task.booked mrid (timers mrid q listed)⟩

theorem tasks_cancelTimers (booked : Booked w) (mrid : Mrid) : Tasks w (w.cancelTimers mrid) := by
  refine (tasks_endTasks booked fun q listed => booked.timers mrid q
    (List.mem_filter.mp listed).1).fewer ?_ rfl rfl rfl rfl
  intro m q listed
  simp only [Core.cancelTimers, Dict.getD, Dict.get?_erase] at listed
  split at listed
  · cases listed
  · exact listed

theorem tasks_close (booked : Booked w) : Tasks w w.close := by
  refine (tasks_endTasks booked fun q listed => ?_).fewer ?_ rfl rfl rfl rfl
  · obtain ⟨qs, value, member⟩ := List.mem_flatten.mp listed
    obtain ⟨mrid, found⟩ := (Dict.mem_values_iff _ _).mp value
    exact booked.timers mrid q (by simpa [Dict.getD, found] using member)
  · intro m q listed
    simp [Core.close, Dict.getD] at listed

theorem tasks_schedule (booked : Booked w) {timer : Timer} (made : timer.ref < w.store.next) :
    Tasks w (w.schedule timer) := by
  have listed : ∀ mrid q, q ∈ (w.schedule timer).timers.getD mrid [] →
      q ∈ w.timers.getD mrid [] ∨ q = w.nextPid ∧ mrid = (w.record timer.ref).mrid := by
    intro mrid q listed
    simp only [Core.schedule, Dict.getD, Dict.get?_set] at listed
    split at listed
    · rename_i same
      simp only [Option.getD_some, List.mem_append, List.mem_singleton] at listed
      rw [same]
      exact listed.imp_right fun new => ⟨new, rfl⟩
    · exact .inl listed
  refine ⟨Nat.le_succ _, fun mrid q booked' => ?_, fun q child => .inl child, fun q gone => gone,
    fun q gone => .inl gone, fun q t sleeps => ?_⟩
  · refine (listed mrid q booked').imp_right ?_
    rintro ⟨rfl, -⟩
    exact ⟨le_rfl, Nat.lt_succ_self _⟩
  · simp only [Core.schedule, Dict.get?_set] at sleeps
    split at sleeps
    · rename_i same
      cases sleeps
      subst same
      refine .inr ⟨made, Nat.lt_succ_self _, ?_, ?_, fun mrid booked' => ?_⟩
      · exact fun gone => (booked.cancelled _ gone).false
      · exact fun child => (booked.children _ child).false
      · rcases listed mrid _ booked' with before | new
        · exact absurd (booked.timers mrid _ before) (lt_irrefl _)
        · exact new.2
    · exact .inl ⟨sleeps, fun gone => gone⟩

theorem tasks_spawn (r : Ref) (devices : List Href) :
    Tasks w (devices.foldl (fun w d => w.spawnChild r d) w) := by
  suffices spawns : ∀ v, w.nextPid ≤ v.nextPid → v.timers = w.timers → v.sleeping = w.sleeping →
      v.cancelled = w.cancelled →
      (∀ q ∈ v.children.keys, q ∈ w.children.keys ∨ w.nextPid ≤ q ∧ q < v.nextPid) →
      Tasks w (devices.foldl (fun w d => w.spawnChild r d) v) from
    spawns w le_rfl rfl rfl rfl fun _ child => .inl child
  induction devices with
  | nil =>
      intro v nextPid timers sleeping cancelled children
      exact ⟨nextPid, fun _ _ listed => .inl (timers ▸ listed), children,
        fun _ gone => cancelled ▸ gone, fun _ gone => .inl (cancelled ▸ gone),
        fun _ _ sleeps => .inl ⟨sleeping ▸ sleeps, fun gone => cancelled ▸ gone⟩⟩
  | cons d rest ih =>
      intro v nextPid timers sleeping cancelled children
      refine ih (v.spawnChild r d) (nextPid.trans (Nat.le_succ _)) timers sleeping cancelled ?_
      intro q child
      rcases (Dict.mem_keys_set _ _ _ _).mp child with rfl | before
      · exact .inr ⟨nextPid, Nat.lt_succ_self _⟩
      · exact (children q before).imp_right fun new => ⟨new.1, Nat.lt_succ_of_lt new.2⟩

end Tables

theorem exec_tasks {w : World} (booked : Booked w.toCore) {c : Cmd}
    (made : ∀ timer, c = .schedule timer → timer.ref < w.store.next) :
    Tasks w.toCore (World.exec c w).toCore := by
  cases c with
  | schedule timer => exact tasks_schedule booked (made timer rfl)
  | cancelTimers mrid => exact tasks_cancelTimers booked mrid
  | close => exact tasks_close booked
  | spawn r devices => exact tasks_spawn r devices
  | finishChild =>
      refine ⟨le_rfl, fun _ _ listed => .inl listed, fun q child => .inl ?_, fun _ gone => gone,
        fun _ gone => .inl gone, fun _ _ sleeps => .inl ⟨sleeps, fun gone => gone⟩⟩
      exact ((Dict.mem_keys_erase _ _ _).mp child).2
  | _ => exact .of_same le_rfl rfl rfl rfl fun _ _ sleeps => sleeps

/-! ### What an entry is given back by -/

/-- An entry on device `d` goes with record `r`: no other is stored under the mRID, and the device
is still one of its program. -/
structure Core.Owner (w : Core) (r : Ref) (d : Href) (mrid : Mrid) : Prop where
  made : r < w.store.next
  own : (w.record r).mrid = mrid
  device : d ∈ w.devicesOf (w.record r).programHref
  sole : ∀ q, w.store.get? mrid = some q → q = r

/-- The entry goes with a running event. -/
def Core.Provides (w : Core) (d : Href) (mrid : Mrid) : Prop :=
  ∃ r, w.Owner r d mrid ∧ w.store.get? mrid = some r ∧ w.Runs r

/-- A task that ended record `r` is ended by a `cancel` only while `r` is COMPLETED. -/
def Core.Fit (w : Core) (q : Pid) (r : Ref) : Prop :=
  w.Task q fun mrid => mrid = (w.record r).mrid ∧ (w.record r).state = .completed

/-- What holds throughout a course, in the middle of a step too. -/
structure Consistent (w : World) : Prop where
  booked : Booked w.toCore
  keyed : w.store.Keyed
  unmade : ∀ r, w.store.next ≤ r → ¬ w.Live r
  sole : ∀ r, w.Live r → w.Sole r
  hands : ∀ r, w.InHand r → r < w.store.next ∧ w.Sole r
  idle : ∀ q, w.nextPid ≤ q → w.held q = []

/-- What task `p` counts on across its waits. -/
structure Unswayed (p : Pid) (w w' : World) : Prop where
  next : w.store.next ≤ w'.store.next
  mrid : ∀ r < w.store.next, (w'.record r).mrid = (w.record r).mrid
  held : w'.held p = w.held p
  cancelled : p ∈ w.cancelled → p ∈ w'.cancelled
  task : ∀ books, w.Task p books → p ∉ w'.cancelled → w'.Task p books

theorem Unswayed.trans {p : Pid} {w w' w'' : World} (first : Unswayed p w w')
    (second : Unswayed p w' w'') : Unswayed p w w'' where
  next := first.next.trans second.next
  mrid r made := by rw [second.mrid r (made.trans_le first.next), first.mrid r made]
  held := second.held.trans first.held
  cancelled gone := second.cancelled (first.cancelled gone)
  task books task alive := by
    have before : p ∉ w'.cancelled := fun gone => alive (second.cancelled gone)
    exact second.task books (first.task books task before) alive

/-- Entries whose events do not run are to go. They go when they are unregistered; the wind-down of
a cancellation is waited for only where there are none. -/
def givingBack : Duties processor where
  Item := Href × Mrid
  Ticket := Ref × Href × Mrid
  item := Prod.snd
  needed i w := i.1 ∈ w.modes.holders i.2 ∧ ¬ w.Provides i.1 i.2
  valid t w := w.Owner t.1 t.2.1 t.2.2
  fit q t w := w.Fit q t.1
  settles t c := c = .unregister t.2.1 t.2.2 ∨
    ∃ timer, c = .schedule timer ∧ timer.ref = t.1 ∧ timer.callback = .windDown
  inv := Consistent
  rely := Unswayed
  ok := Harmless
  cond c w := c.Harmless w
  rely_refl := ⟨le_rfl, fun _ _ => rfl, rfl, fun gone => gone, fun _ task _ => task⟩
  rely_trans := Unswayed.trans
  settled := by
    rintro ⟨r, d, mrid⟩ c w harmless owner (rfl | ⟨timer, rfl, rfl, wind⟩) ⟨entry, -⟩
    · exact (ActiveModeTracker.mem_holders_unregister.mp entry).1 ⟨rfl, rfl⟩
    · have none_ : w.modes.holders (w.record timer.ref).mrid = [] := harmless wind
      rw [owner.own] at none_
      change d ∈ w.modes.holders mrid at entry
      rw [none_] at entry
      cases entry

/-! ### What each command leaves in order -/

/-- What a change leaves of the records: those made keep their mRIDs and programs, and where there
are entries nothing new is stored and a completed event stays one. -/
structure Files (w w' : World) : Prop where
  next : w.store.next ≤ w'.store.next
  mrid : ∀ r < w.store.next, (w'.record r).mrid = (w.record r).mrid
  owner : ∀ r d mrid, d ∈ w'.modes.holders mrid → w.Owner r d mrid → w'.Owner r d mrid
  completed : ∀ r < w.store.next, w'.modes.holders (w.record r).mrid ≠ [] →
    (w.record r).state = .completed → (w'.record r).state = .completed

section Kept

variable {w w' : World}

theorem Files.fit (files : Files w w') (tasks : Tasks w.toCore w'.toCore) {r : Ref} {d : Href}
    {mrid : Mrid} {q : Pid} (entry : d ∈ w'.modes.holders mrid) (owner : w.Owner r d mrid)
    (fit : w.Fit q r) (alive : q ∉ w'.cancelled) : w'.Fit q r := by
  have task := Core.Task.moved fit tasks alive
  refine ⟨task.made, task.alive, task.apart, fun m listed => ?_⟩
  obtain ⟨own, completed⟩ := task.booked m listed
  rw [files.mrid r owner.made]
  refine ⟨own, files.completed r owner.made ?_ completed⟩
  rw [owner.own]
  exact List.ne_nil_of_mem entry

/-- A change by task `p`, put together. -/
theorem kept_of {p : Option Pid} (inv : Consistent w') (tasks : Tasks w.toCore w'.toCore)
    (files : Files w w') (held : ∀ q, some q ≠ p → w'.held q = w.held q)
    (alive : ∀ r d mrid q, d ∈ w'.modes.holders mrid → w.Owner r d mrid → w.Fit q r →
      q ∉ w'.cancelled) : givingBack.Kept p w w' where
  inv := inv
  rely q other :=
    ⟨files.next, files.mrid, held q other, tasks.cancelled q, fun _ task => task.moved tasks⟩
  valid _ needed owner := files.owner _ _ _ needed.1 owner
  fit q _ needed owner fit :=
    files.fit tasks needed.1 owner fit (alive _ _ _ q needed.1 owner fit)

/-- The order of the records, after a change that leaves events and hands alone. -/
theorem Consistent.kept (sound : Consistent w) (tasks : Tasks w.toCore w'.toCore)
    (events : EventsKept w w') (held : w'.held = w.held) : Consistent w' where
  booked := sound.booked.moved tasks events.next.ge fun r _ => events.mrid r
  keyed := events.keyed sound.keyed
  unmade r unmade := by
    rw [events.live_iff]
    exact sound.unmade r (events.next ▸ unmade)
  sole r live := by
    rw [events.sole_iff]
    exact sound.sole r ((events.live_iff r).mp live)
  hands r hand := by
    rw [events.sole_iff, events.next]
    refine sound.hands r ?_
    obtain ⟨q, made, alive, member⟩ := hand
    rw [held] at member
    refine ⟨q, ?_, fun gone => alive (tasks.cancelled q gone), member⟩
    by_contra unmade
    rw [sound.idle q (Nat.le_of_not_lt unmade)] at member
    cases member
  idle q unmade := by
    rw [held]
    exact sound.idle q (tasks.nextPid.trans unmade)

theorem Files.of_same (store : w'.store = w.store) (discovered : w'.discovered = w.discovered) :
    Files w w' where
  next := by rw [store]
  mrid r _ := by rw [Core.record, store, Core.record]
  owner r d mrid _ owner := by
    refine ⟨store ▸ owner.made, ?_, ?_, fun q found => owner.sole q (store ▸ found)⟩
    · rw [Core.record, store]
      exact owner.own
    · rw [Core.devicesOf, discovered, Core.record, store]
      exact owner.device
  completed r _ _ ended := by
    rw [Core.record, store]
    exact ended

/-- With the same records and entries, the same is needed. -/
theorem needed_of_same (store : w'.store = w.store) (discovered : w'.discovered = w.discovered)
    (modes : w'.modes = w.modes) (i : Href × Mrid) (needed : givingBack.needed i w') :
    givingBack.needed i w := by
  refine ⟨modes ▸ needed.1, ?_⟩
  rintro ⟨r, owner, found, runs⟩
  refine needed.2 ⟨r, (Files.of_same store discovered).owner r i.1 i.2 needed.1 owner, ?_, ?_⟩
  · rw [store]
    exact found
  · rw [Core.Runs, Core.record, store]
    exact runs

/-- A change that leaves the events alone, takes no device away and registers none. -/
theorem quiet_of_kept (sound : Consistent w) (tasks : Tasks w.toCore w'.toCore)
    (events : EventsKept w w') (held : w'.held = w.held) (alive : w'.cancelled = w.cancelled)
    (program : ∀ r, (w'.record r).programHref = (w.record r).programHref)
    (optedOut : ∀ r, (w'.record r).optedOut = (w.record r).optedOut)
    (devices : ∀ r d mrid, d ∈ w'.modes.holders mrid → w.Owner r d mrid →
      d ∈ w'.devicesOf (w.record r).programHref)
    (holders : ∀ d mrid, d ∈ w'.modes.holders mrid → d ∈ w.modes.holders mrid) :
    givingBack.Quiet none w w' := by
  have files : Files w w' := by
    refine ⟨events.next.ge, fun r _ => events.mrid r, fun r d mrid entry owner => ?_,
      fun r _ _ completed => (events.state r).trans completed⟩
    refine ⟨events.next ▸ owner.made, (events.mrid r).trans owner.own, ?_, fun q stored => ?_⟩
    · rw [program r]
      exact devices r d mrid entry owner
    · exact owner.sole q (events.get? mrid ▸ stored)
  refine ⟨kept_of (sound.kept tasks events held) tasks files (fun q _ => by rw [held]) ?_, ?_⟩
  · intro r d mrid q _ _ fit
    rw [alive]
    exact fit.alive
  · rintro ⟨d, mrid⟩ ⟨entry, idle⟩
    refine ⟨holders d mrid entry, ?_⟩
    rintro ⟨r, owner, stored, runs⟩
    refine idle ⟨r, files.owner r d mrid entry owner, (events.get? mrid).trans stored, ?_⟩
    exact ⟨(events.state r).trans runs.1, (optedOut r).trans runs.2⟩

end Kept

section Commands

variable {w : World} (sound : Consistent w)

include sound

/-- A new record, under an mRID without entries. -/
theorem quiet_upsert {record : EventRecord} (harmless : (Cmd.upsert record).Harmless w) :
    givingBack.Quiet none w (World.exec (.upsert record) w) := by
  obtain ⟨none_, before⟩ := harmless
  set w' := World.exec (.upsert record) w with new
  have old : ∀ q, q ≠ w.store.next → w'.record q = w.record q :=
    fun q different => Function.update_of_ne different _ _
  have own : w'.record w.store.next = record := Function.update_self _ _ _
  have stored : ∀ mrid, w'.store.get? mrid =
      if mrid = record.mrid then some w.store.next else w.store.get? mrid := by
    intro mrid
    rw [new]
    simp only [World.exec, Core.exec, EventStore.get?, EventStore.upsert, Dict.get?_set]
  have other : ∀ mrid, mrid ≠ record.mrid → w'.store.get? mrid = w.store.get? mrid := by
    intro mrid different
    rw [stored, if_neg different]
  have free : ∀ d mrid, d ∈ w.modes.holders mrid → mrid ≠ record.mrid := by
    rintro d mrid entry rfl
    rw [none_] at entry
    cases entry
  have sole : ∀ r, r < w.store.next → w.Sole r → (w.record r).mrid ≠ record.mrid → w'.Sole r := by
    intro r made alone different q found
    rw [old r (Nat.ne_of_lt made), other _ different] at found
    exact alone q found
  have tasks : Tasks w.toCore w'.toCore := exec_tasks sound.booked fun timer same => by cases same
  have inv : Consistent w' := by
    refine ⟨sound.booked.moved tasks (Nat.le_succ _) ?_, exec_keyed _ w sound.keyed, ?_, ?_, ?_,
      sound.idle⟩
    · intro r made
      rw [old r (Nat.ne_of_lt made)]
    · intro r unmade
      unfold Core.Live
      rw [old r (Nat.ne_of_gt (Nat.lt_of_succ_le unmade))]
      exact sound.unmade r (Nat.le_of_succ_le unmade)
    · intro r live
      by_cases same : r = w.store.next
      · subst same
        intro q found
        rw [own, stored, if_pos rfl] at found
        exact (Option.some.inj found).symm
      · have live' : w.Live r := by
          unfold Core.Live at live ⊢
          rwa [old r same] at live
        have made : r < w.store.next := by
          by_contra unmade
          exact sound.unmade r (Nat.le_of_not_lt unmade) live'
        refine sole r made (sound.sole r live') fun clash => ?_
        have ended := (before r made clash).1
        unfold Core.Live at live'
        rw [live'] at ended
        cases ended
    · intro r hand
      have hand' : w.InHand r := hand
      obtain ⟨made, alone⟩ := sound.hands r hand'
      exact ⟨Nat.lt_succ_of_lt made, sole r made alone fun clash => (before r made clash).2 hand'⟩
  have files : Files w w' := by
    refine ⟨Nat.le_succ _, fun r made => by rw [old r (Nat.ne_of_lt made)], ?_, ?_⟩
    · intro r d mrid entry owner
      have same := old r (Nat.ne_of_lt owner.made)
      refine ⟨Nat.lt_succ_of_lt owner.made, by rw [same]; exact owner.own, ?_, fun q found => ?_⟩
      · rw [same]
        exact owner.device
      · rw [other mrid (free d mrid entry)] at found
        exact owner.sole q found
    · intro r made _ completed
      rw [old r (Nat.ne_of_lt made)]
      exact completed
  refine ⟨kept_of inv tasks files (fun _ _ => rfl) fun _ _ _ _ _ _ fit => fit.alive, ?_⟩
  rintro ⟨d, mrid⟩ ⟨entry, idle⟩
  refine ⟨entry, ?_⟩
  rintro ⟨r, owner, found, runs⟩
  refine idle ⟨r, files.owner r d mrid entry owner, ?_, ?_⟩
  · rw [other mrid (free d mrid entry)]
    exact found
  · unfold Core.Runs
    rw [old r (Nat.ne_of_lt owner.made)]
    exact runs

/-- A pruning that leaves every running event with entries. -/
theorem quiet_prune {now : Int} (harmless : (Cmd.pruneStore now).Harmless w) :
    givingBack.Quiet none w (World.exec (.pruneStore now) w) := by
  have fewer : ∀ mrid q, (World.exec (.pruneStore now) w).store.get? mrid = some q →
      w.store.get? mrid = some q := fun mrid q found => EventStore.get?_pruneExpired found
  have tasks : Tasks w.toCore (World.exec (.pruneStore now) w).toCore :=
    exec_tasks sound.booked fun timer same => by cases same
  have inv : Consistent (World.exec (.pruneStore now) w) := by
    refine ⟨sound.booked.moved tasks le_rfl fun _ _ => rfl, exec_keyed _ w sound.keyed,
      sound.unmade, fun r live q found => ?_, fun r hand => ?_, sound.idle⟩
    · exact sound.sole r live q (fewer _ q found)
    · obtain ⟨made, sole⟩ := sound.hands r hand
      exact ⟨made, fun q found => sole q (fewer _ q found)⟩
  have files : Files w (World.exec (.pruneStore now) w) := by
    refine ⟨le_rfl, fun _ _ => rfl, fun r d mrid _ owner => ?_, fun _ _ _ completed => completed⟩
    exact ⟨owner.made, owner.own, owner.device, fun q found => owner.sole q (fewer mrid q found)⟩
  refine ⟨kept_of inv tasks files (fun _ _ => rfl) fun _ _ _ _ _ _ fit => fit.alive, ?_⟩
  rintro ⟨d, mrid⟩ ⟨entry, idle⟩
  refine ⟨entry, ?_⟩
  rintro ⟨r, owner, found, runs⟩
  refine idle ⟨r, files.owner r d mrid entry owner, ?_, runs⟩
  have stays : ¬ (w.record r).end + 60 < now := harmless (mrid, r)
    ((Dict.mem_entries_iff _ _ _).mpr found) runs (List.ne_nil_of_mem entry)
  simp only [World.exec, Core.exec, EventStore.get?, EventStore.pruneExpired, Dict.get?_filter,
    Option.filter_eq_some_iff, Bool.not_eq_true', decide_eq_false_iff_not]
  exact ⟨found, stays⟩

/-- A registration for a running event. -/
theorem quiet_register {d : Href} {mrid : Mrid} {modes : Finset Mode}
    (harmless : (Cmd.register d mrid modes).Harmless w) :
    givingBack.Quiet none w (World.exec (.register d mrid modes) w) := by
  obtain ⟨r, stored, runs, device⟩ := harmless
  obtain ⟨made, own⟩ := sound.keyed mrid r stored
  have tasks : Tasks w.toCore (World.exec (.register d mrid modes) w).toCore :=
    exec_tasks sound.booked fun timer same => by cases same
  have inv : Consistent (World.exec (.register d mrid modes) w) :=
    sound.kept tasks (EventsKept.of_store rfl) rfl
  have files : Files w (World.exec (.register d mrid modes) w) := .of_same rfl rfl
  refine ⟨kept_of inv tasks files (fun _ _ => rfl) fun _ _ _ _ _ _ fit => fit.alive, ?_⟩
  rintro ⟨e, q⟩ ⟨entry, idle⟩
  rcases (ActiveModeTracker.mem_holders_register modes).mp entry with ⟨rfl, rfl⟩ | before
  · refine absurd ⟨r, ⟨made, own, device, fun q found => ?_⟩, stored, runs⟩ idle
    exact Option.some.inj (found.symm.trans stored)
  · refine ⟨before, ?_⟩
    rintro ⟨r, owner, found, runs⟩
    exact idle ⟨r, files.owner r e q entry owner, found, runs⟩

/-- A change in place of nothing that decides whether the event runs, or where. -/
theorem quiet_change {r : Ref} {change : EventRecord → EventRecord}
    (state : ∀ record, (change record).state = record.state)
    (mrid : ∀ record, (change record).mrid = record.mrid)
    (program : ∀ record, (change record).programHref = record.programHref)
    (optedOut : ∀ record, (change record).optedOut = record.optedOut) :
    givingBack.Quiet none w { w with toCore := w.toCore.withRecord r change } := by
  have kept : ∀ q, ((w.toCore.withRecord r change).record q).programHref =
        (w.record q).programHref ∧
      ((w.toCore.withRecord r change).record q).optedOut = (w.record q).optedOut := by
    intro q
    unfold Core.record Core.withRecord
    by_cases same : q = r
    · subst same
      rw [EventStore.object_update_self]
      exact ⟨program _, optedOut _⟩
    · rw [EventStore.object_update_ne _ _ same]
      exact ⟨rfl, rfl⟩
  exact quiet_of_kept sound (.of_same le_rfl rfl rfl rfl fun _ _ sleeps => sleeps)
    (EventsKept.withRecord w r state mrid) rfl rfl (fun q => (kept q).1) (fun q => (kept q).2)
    (fun _ _ _ _ owner => owner.device) fun _ _ entry => entry

/-- The commands that neither end an event, nor end a task, nor take a record in hand. -/
abbrev gentle : List Effect :=
  [.upsert, .refresh, .supersede, .outcome, .prune, .offsets, .register, .unregister,
    .clearDefaults, .recordDefault, .boundary, .claim, .spawn, .finishChild, .control, .issue]

theorem quiet_exec {c : Cmd} (listed : c.effect ∈ gentle) (harmless : c.Harmless w) :
    givingBack.Quiet none w (World.exec c w) := by
  have tasks : Tasks w.toCore (World.exec c w).toCore := by
    refine exec_tasks sound.booked ?_
    rintro timer rfl
    simp [Cmd.effect] at listed
  cases c with
  | upsert record => exact quiet_upsert sound harmless
  | pruneStore now => exact quiet_prune sound harmless
  | register d mrid modes => exact quiet_register sound harmless
  | setState | setOptedOut | schedule | cancelTimers | close | hold => simp [Cmd.effect] at listed
  | refresh r | addSuperseded r | addSupersededModes r | addApplied r | addRejected r =>
      exact quiet_change sound (fun _ => rfl) (fun _ => rfl) (fun _ => rfl) fun _ => rfl
  | unregister d mrid =>
      exact quiet_of_kept sound tasks (EventsKept.of_store rfl) rfl rfl (fun _ => rfl)
        (fun _ => rfl) (fun _ _ _ _ owner => owner.device)
        fun _ _ entry => (ActiveModeTracker.mem_holders_unregister.mp entry).2
  | spawn r devices =>
      obtain ⟨children, spawned, nextPid, made⟩ := spawn_spec w.toCore r devices
      have same : World.exec (.spawn r devices) w =
          { w with children := children, spawned := spawned, nextPid := nextPid } :=
        congrArg (fun core => ({ w with toCore := core } : World)) made
      rw [same] at tasks ⊢
      exact quiet_of_kept sound tasks (EventsKept.of_store rfl) rfl rfl (fun _ => rfl)
        (fun _ => rfl) (fun _ _ _ _ owner => owner.device) fun _ _ entry => entry
  | _ =>
      exact quiet_of_kept sound tasks (EventsKept.of_store rfl) rfl rfl (fun _ => rfl)
        (fun _ => rfl) (fun _ _ _ _ owner => owner.device) fun _ _ entry => entry

/-- A change in place that may end the event of `r`, and what has to be given back then. -/
theorem kept_change (r : Ref) (change : EventRecord → EventRecord)
    (mrid : ∀ record, (change record).mrid = record.mrid)
    (program : ∀ record, (change record).programHref = record.programHref)
    (alone : (change (w.record r)).state.isTerminal = false → r < w.store.next ∧ w.Sole r)
    (completed : w.modes.holders (w.record r).mrid ≠ [] → (w.record r).state = .completed →
      (change (w.record r)).state = .completed) {w' : World}
    (changed : w' = { w with toCore := w.toCore.withRecord r change }) :
    givingBack.Kept none w w' ∧
      ∀ i, givingBack.needed i w' → givingBack.needed i w ∨
        w.store.get? i.2 = some r ∧ w.Runs r ∧ ¬ w'.Runs r ∧ w'.Owner r i.1 i.2 := by
  have own : w'.record r = change (w.record r) := by
    rw [changed]
    exact EventStore.object_update_self w.store r change
  have other : ∀ q, q ≠ r → w'.record q = w.record q := by
    intro q different
    rw [changed]
    exact EventStore.object_update_ne w.store change different
  have mrids : ∀ q, (w'.record q).mrid = (w.record q).mrid := by
    intro q
    by_cases same : q = r
    · rw [same, own, mrid]
    · rw [other q same]
  have stored : ∀ m, w'.store.get? m = w.store.get? m := by
    intro m
    rw [changed]
    rfl
  have next : w'.store.next = w.store.next := by rw [changed]; rfl
  have holders : w'.modes = w.modes := by rw [changed]; rfl
  have sole : ∀ q, w.Sole q → w'.Sole q := by
    intro q alone q' found
    rw [mrids q, stored] at found
    exact alone q' found
  have tasks : Tasks w.toCore w'.toCore := by
    rw [changed]
    exact .of_same le_rfl rfl rfl rfl fun _ _ sleeps => sleeps
  have inv : Consistent w' := by
    refine ⟨sound.booked.moved tasks next.ge fun q _ => mrids q, fun m q found => ?_,
      fun q unmade live => ?_, fun q live => ?_, fun q hand => ?_, ?_⟩
    · rw [stored] at found
      obtain ⟨made, keyed⟩ := sound.keyed m q found
      exact ⟨next ▸ made, (mrids q).trans keyed⟩
    · rw [next] at unmade
      unfold Core.Live at live
      by_cases same : q = r
      · subst same
        rw [own] at live
        exact absurd (alone live).1 (Nat.not_lt.mpr unmade)
      · rw [other q same] at live
        exact sound.unmade q unmade live
    · unfold Core.Live at live
      by_cases same : q = r
      · subst same
        rw [own] at live
        exact sole q (alone live).2
      · rw [other q same] at live
        exact sole q (sound.sole q live)
    · rw [changed] at hand
      obtain ⟨made, alone'⟩ := sound.hands q hand
      exact ⟨next ▸ made, sole q alone'⟩
    · rw [changed]
      exact sound.idle
  have files : Files w w' := by
    refine ⟨next.ge, fun q _ => mrids q, fun q d m _ owner => ?_, fun q _ entries ended => ?_⟩
    · refine ⟨next ▸ owner.made, (mrids q).trans owner.own, ?_, fun q' found => ?_⟩
      · have device : w'.devicesOf (w'.record q).programHref =
            w.devicesOf (w.record q).programHref := by
          by_cases same : q = r
          · rw [same, own, program, changed]
            rfl
          · rw [other q same, changed]
            rfl
        rw [device]
        exact owner.device
      · rw [stored] at found
        exact owner.sole q' found
    · by_cases same : q = r
      · subst same
        rw [holders] at entries
        rw [own]
        exact completed entries ended
      · rw [other q same]
        exact ended
  have held : w'.held = w.held := by rw [changed]
  have alive : w'.cancelled = w.cancelled := by rw [changed]; rfl
  refine ⟨kept_of inv tasks files (fun q _ => by rw [held]) fun _ _ _ _ _ _ fit => ?_, ?_⟩
  · rw [alive]
    exact fit.alive
  · rintro ⟨d, m⟩ ⟨entry, idle⟩
    have entry' : d ∈ w.modes.holders m := by rwa [holders] at entry
    by_cases provided : w.Provides d m
    · obtain ⟨q, owner, found, runs⟩ := provided
      have owner' := files.owner q d m entry owner
      by_cases same : q = r
      · subst same
        refine .inr ⟨found, runs, fun still => idle ⟨q, owner', ?_, still⟩, owner'⟩
        rw [stored]
        exact found
      · refine absurd ⟨q, owner', ?_, ?_⟩ idle
        · rw [stored]
          exact found
        · unfold Core.Runs
          rw [other q same]
          exact runs
    · exact .inl ⟨entry', provided⟩

/-- A transition of a stored event. -/
theorem kept_setState {mrid : Mrid} {r : Ref} {st : EventState}
    (stored : w.store.get? mrid = some r) (harmless : (Cmd.setState r st).Harmless w) :
    givingBack.Kept none w (World.exec (.setState r st) w) ∧
      ∀ i, givingBack.needed i (World.exec (.setState r st) w) → givingBack.needed i w ∨
        i.2 = mrid ∧ w.Runs r ∧ st ≠ .active ∧
          (World.exec (.setState r st) w).Owner r i.1 mrid := by
  obtain ⟨made, own⟩ := sound.keyed mrid r stored
  obtain ⟨kept, needs⟩ := kept_change sound r (fun record => { record with state := st })
    (fun _ => rfl) (fun _ => rfl) (fun _ => ⟨made, sole_of_stored sound.keyed stored⟩)
    (fun entries ended => absurd (harmless ended) entries)
    (show World.exec (.setState r st) w = _ from rfl)
  refine ⟨kept, fun i needed => (needs i needed).imp_right ?_⟩
  rintro ⟨found, runs, ended, owner⟩
  have same : i.2 = mrid := (sound.keyed i.2 r found).2.symm.trans own
  refine ⟨same, runs, ?_, same ▸ owner⟩
  rintro rfl
  refine ended ?_
  unfold Core.Runs
  rw [record_setState_self]
  exact ⟨rfl, runs.2⟩

theorem kept_setOptedOut (r : Ref) :
    givingBack.Kept none w (World.exec (.setOptedOut r) w) ∧
      ∀ i, givingBack.needed i (World.exec (.setOptedOut r) w) → givingBack.needed i w ∨
        (World.exec (.setOptedOut r) w).Owner r i.1 i.2 := by
  have made : w.Live r → r < w.store.next := by
    intro live
    by_contra unmade
    exact sound.unmade r (Nat.le_of_not_lt unmade) live
  obtain ⟨kept, needs⟩ := kept_change sound r (fun record => { record with optedOut := true })
    (fun _ => rfl) (fun _ => rfl) (fun live => ⟨made live, sound.sole r live⟩)
    (fun _ ended => ended) (show World.exec (.setOptedOut r) w = _ from rfl)
  exact ⟨kept, fun i needed => (needs i needed).imp_right fun new => new.2.2.2⟩

/-- The timers of an event that is not COMPLETED: no task that has to give entries back is among
them. -/
theorem quiet_cancelTimers {mrid : Mrid} {r : Ref} (stored : w.store.get? mrid = some r)
    (running : (w.record r).state ≠ .completed) :
    givingBack.Quiet none w (World.exec (.cancelTimers mrid) w) := by
  have tasks : Tasks w.toCore (World.exec (.cancelTimers mrid) w).toCore :=
    exec_tasks sound.booked fun timer same => by cases same
  have inv : Consistent (World.exec (.cancelTimers mrid) w) :=
    sound.kept tasks (EventsKept.of_store rfl) rfl
  refine ⟨kept_of inv tasks (.of_same rfl rfl) (fun _ _ => rfl)
    fun q d m p entry owner fit gone => ?_, needed_of_same rfl rfl rfl⟩
  rcases mem_endTasks (w := w.toCore) gone with ended | child | before
  · obtain ⟨own, completed⟩ := fit.booked mrid (List.mem_filter.mp ended).1
    have same : m = mrid := owner.own.symm.trans own.symm
    rw [owner.sole r (same ▸ stored)] at running
    exact running completed
  · exact fit.apart child
  · exact fit.alive before

/-- The shutdown, with no completed event still to give entries back. -/
theorem quiet_close {p : Pid} (harmless : Harmless w (.start p .shutdown)) :
    givingBack.Quiet none w (World.exec .close w) := by
  have tasks : Tasks w.toCore (World.exec .close w).toCore :=
    exec_tasks sound.booked fun timer same => by cases same
  have inv : Consistent (World.exec .close w) := sound.kept tasks (EventsKept.of_store rfl) rfl
  refine ⟨kept_of inv tasks (.of_same rfl rfl) (fun _ _ => rfl)
    fun r d m p entry owner fit gone => ?_, needed_of_same rfl rfl rfl⟩
  rcases mem_endTasks (w := w.toCore) gone with ended | child | before
  · obtain ⟨qs, value, member⟩ := List.mem_flatten.mp ended
    obtain ⟨mrid, found⟩ := (Dict.mem_values_iff _ _).mp value
    have listed : p ∈ w.timers.getD mrid [] := by simpa [Dict.getD, found] using member
    obtain ⟨-, completed⟩ := fit.booked mrid listed
    have entry' : d ∈ w.modes.holders (w.record r).mrid := owner.own.symm ▸ entry
    rw [harmless r owner.made completed fun q stored => owner.sole q (owner.own ▸ stored)]
      at entry'
    cases entry'
  · exact fit.apart child
  · exact fit.alive before

theorem quiet_schedule {timer : Timer} (made : timer.ref < w.store.next) :
    givingBack.Quiet none w (World.exec (.schedule timer) w) :=
  quiet_of_kept sound (tasks_schedule sound.booked made) (EventsKept.of_store rfl) rfl rfl
    (fun _ => rfl) (fun _ => rfl) (fun _ _ _ _ owner => owner.device) fun _ _ entry => entry

/-- The task that runs takes records in hand that are the only ones under their mRIDs. -/
theorem quiet_hold {refs : List Ref} (made : w.current < w.nextPid)
    (sole : ∀ r ∈ refs, r < w.store.next ∧ w.Sole r) :
    givingBack.Quiet (some w.current) w (World.exec (.hold refs) w) := by
  have tasks : Tasks w.toCore (World.exec (.hold refs) w).toCore :=
    exec_tasks sound.booked fun timer same => by cases same
  have other : ∀ q, q ≠ w.current → (World.exec (.hold refs) w).held q = w.held q :=
    fun q different => Function.update_of_ne different _ _
  have own : (World.exec (.hold refs) w).held w.current = refs := Function.update_self _ _ _
  have inv : Consistent (World.exec (.hold refs) w) := by
    refine ⟨sound.booked.moved tasks le_rfl fun _ _ => rfl, sound.keyed, sound.unmade,
      sound.sole, ?_, fun q unmade => ?_⟩
    · rintro r ⟨q, made', alive, member⟩
      by_cases same : q = w.current
      · rw [same, own] at member
        exact sole r member
      · rw [other q same] at member
        exact sound.hands r ⟨q, made', alive, member⟩
    · have made' : w.nextPid ≤ q := unmade
      rw [other q (Nat.ne_of_gt (made.trans_le made'))]
      exact sound.idle q made'
  exact ⟨kept_of inv tasks (.of_same rfl rfl)
    (fun q different => other q fun same => different (congrArg some same))
    fun _ _ _ _ _ _ fit => fit.alive, needed_of_same rfl rfl rfl⟩

end Commands

end Py20305
