import Py20305.Events.Records
import Py20305.Lib.Machine

/-!
`EventTimerManager` (`events/timers.py`): the timers of events, task by task.

A timer that ends by itself stays in the table, and `cancel` takes timers out that have still to
unwind. So `has_pending` is right as long as no timer ends as the last of its mRID and none is
cancelled, and the next such step makes it wrong (`bookkeeping_exact_iff`). That a cancelled timer
does not call back holds in every run.

A task that is cancelled while it sleeps raises `CancelledError` there, and ends; one whose
callback runs may end or go on.

Left out: how long a timer sleeps between two looks at its clock.
-/

namespace Py20305.Timers

/-- Where a timer's task is. -/
inductive Phase where
  /-- It sleeps, or has still to start. -/
  | waiting
  /-- The callback was called. -/
  | calling
  | finished
  deriving DecidableEq, Repr

/-- A task of `_wait_and_fire`. -/
structure Timer where
  mrid : Mrid
  target : Int
  phase : Phase
  /-- `Task.cancel` was called on it. -/
  cancelled : Bool

/-- The manager, with the tasks made so far; those below `next` have been. -/
structure Manager where
  shutdown : Bool
  task : Nat → Timer
  next : Nat
  /-- `_tasks`. -/
  table : Dict Mrid (List Nat)

def Manager.fresh : Manager := ⟨false, fun _ => ⟨0, 0, .finished, false⟩, 0, .empty⟩

def activationLead : Int := 0

def completionLead : Int := 0

/-- A look at the clock in `_wait_and_fire`: sleep on, end or call back. -/
def Timer.look (timer : Timer) (shutdown : Bool) (now : Int) (state : EventState) : Phase :=
  if shutdown then .finished
  else if timer.target - now > 0 then .waiting
  else if state.isTerminal then .finished
  else .calling

namespace Manager

variable (m : Manager)

/-- `has_pending`. -/
def hasPending (mrid : Mrid) : Bool := mrid ∈ m.table.keys

/-- `create_task`, and `setdefault(..).append`. -/
def startTimer (mrid : Mrid) (target : Int) : Manager :=
  { m with
    task := Function.update m.task m.next ⟨mrid, target, .waiting, false⟩
    next := m.next + 1
    table := m.table.set mrid (m.table.getD mrid [] ++ [m.next]) }

def scheduleActivation (record : EventRecord) : Manager :=
  m.startTimer record.mrid (record.start - activationLead)

def scheduleCompletion (record : EventRecord) : Manager :=
  m.startTimer record.mrid (record.end - completionLead)

def scheduleDelayedCallback (record : EventRecord) (now delaySeconds : Int) : Manager :=
  m.startTimer record.mrid (now + delaySeconds)

def cancelTasks (ids : List Nat) : Manager :=
  { m with task := fun i => if i ∈ ids then { m.task i with cancelled := true } else m.task i }

/-- `cancel`, called by the timer `current` or by no timer. -/
def cancel (current : Option Nat) (mrid : Mrid) : Manager :=
  { m.cancelTasks ((m.table.getD mrid []).filter (some · ≠ current)) with
    table := m.table.erase mrid }

/-- `cancel_all`, up to its wait. -/
def cancelAll : Manager :=
  { m.cancelTasks m.table.values.flatten with table := .empty }

def setPhase (i : Nat) (phase : Phase) : Manager :=
  { m with task := Function.update m.task i { m.task i with phase := phase } }

end Manager

inductive Step where
  | scheduleActivation (record : EventRecord)
  | scheduleCompletion (record : EventRecord)
  | scheduleDelayedCallback (record : EventRecord) (now delaySeconds : Int)
  | cancel (current : Option Nat) (mrid : Mrid)
  | cancelAll
  | shutdown
  /-- A timer starts or wakes up, and looks at its clock and at its record's state. -/
  | look (i : Nat) (now : Int) (state : EventState)
  /-- `CancelledError` ends a timer that sleeps. -/
  | unwind (i : Nat)
  /-- The callback returns or raises. -/
  | returned (i : Nat)

/-- The timers as a machine. -/
def timers : Machine where
  State := Manager
  Label := Step
  step
    | .scheduleActivation record, m => some (m.scheduleActivation record)
    | .scheduleCompletion record, m => some (m.scheduleCompletion record)
    | .scheduleDelayedCallback record now delaySeconds, m =>
        some (m.scheduleDelayedCallback record now delaySeconds)
    | .cancel current mrid, m =>
        if current.all (fun i => (m.task i).phase = .calling) then some (m.cancel current mrid)
        else none
    | .cancelAll, m => some m.cancelAll
    | .shutdown, m => some { m with shutdown := true }
    | .look i now state, m =>
        if (m.task i).phase = .waiting ∧ (m.task i).cancelled = false then
          some (m.setPhase i ((m.task i).look m.shutdown now state))
        else none
    | .unwind i, m =>
        if (m.task i).phase = .waiting ∧ (m.task i).cancelled = true then
          some (m.setPhase i .finished)
        else none
    | .returned i, m =>
        if (m.task i).phase = .calling then some (m.setPhase i .finished) else none

/-! ### Steps -/

namespace Manager

/-- Some timer of the mRID has not finished. -/
def Unfinished (m : Manager) (mrid : Mrid) : Prop :=
  ∃ i, (m.task i).mrid = mrid ∧ (m.task i).phase ≠ .finished

/-- So has another one than `i`. -/
def Another (m : Manager) (i : Nat) (mrid : Mrid) : Prop :=
  ∃ j ≠ i, (m.task j).mrid = mrid ∧ (m.task j).phase ≠ .finished

/-- `has_pending` is right. -/
def Exact (m : Manager) : Prop := ∀ mrid, m.hasPending mrid = true ↔ m.Unfinished mrid

end Manager

/-- The timer that a step ends. -/
def Step.ends (m : Manager) : Step → Option Nat
  | .look i now state => if (m.task i).look m.shutdown now state = .finished then some i else none
  | .unwind i | .returned i => some i
  | _ => none

/-- A step that cancels the timers of the mRID. -/
def Step.Withdraws (mrid : Mrid) : Step → Prop
  | .cancel _ q => q = mrid
  | .cancelAll => True
  | _ => False

/-- No timer ends as the last of its mRID, and none is cancelled. -/
def Spares (m : Manager) (l : Step) (_ : Manager) : Prop :=
  (∀ i, l.ends m = some i → m.Another i (m.task i).mrid) ∧
    ∀ mrid, l.Withdraws mrid → ¬ m.Unfinished mrid

/-- A step in which the callback of `i` is called. -/
def Calls (m : Manager) (i : Nat) (m' : Manager) : Prop :=
  (m.task i).phase = .waiting ∧ (m'.task i).phase = .calling

/-! ### Tasks made so far -/

/-- What every step keeps: tasks to come have not been made, and a timer that can still call back
is in the table. -/
structure Tracked (m : Manager) : Prop where
  unmade : ∀ i, m.next ≤ i → (m.task i).phase = .finished
  listed : ∀ i, (m.task i).phase = .waiting → (m.task i).cancelled = false →
    i ∈ m.table.getD (m.task i).mrid []

section Steps

variable {m m' : Manager}

theorem tracked_fresh : Tracked .fresh where
  unmade _ _ := rfl
  listed _ waits := by cases waits

theorem task_startTimer_ne {mrid : Mrid} {target : Int} {i : Nat} (other : i ≠ m.next) :
    (m.startTimer mrid target).task i = m.task i :=
  Function.update_of_ne other _ _

@[simp] theorem task_startTimer_self (mrid : Mrid) (target : Int) :
    (m.startTimer mrid target).task m.next = ⟨mrid, target, .waiting, false⟩ :=
  Function.update_self ..

theorem task_setPhase_ne {i j : Nat} {phase : Phase} (other : j ≠ i) :
    (m.setPhase i phase).task j = m.task j :=
  Function.update_of_ne other _ _

@[simp] theorem task_setPhase_self (i : Nat) (phase : Phase) :
    (m.setPhase i phase).task i = { m.task i with phase := phase } :=
  Function.update_self ..

theorem Tracked.startTimer (tracked : Tracked m) (mrid : Mrid) (target : Int) :
    Tracked (m.startTimer mrid target) where
  unmade i later := by
    rw [task_startTimer_ne (Nat.ne_of_gt later)]
    exact tracked.unmade i (Nat.le_of_lt later)
  listed i waits live := by
    by_cases new : i = m.next
    · subst new
      simp [Manager.startTimer, Dict.getD]
    · rw [task_startTimer_ne new] at waits live ⊢
      have before := tracked.listed i waits live
      by_cases same : (m.task i).mrid = mrid
      · rw [same] at before ⊢
        simp only [Manager.startTimer, Dict.getD, Dict.get?_set_self, Option.getD_some]
        exact List.mem_append_left _ before
      · simpa [Manager.startTimer, Dict.getD, Dict.get?_set_ne _ _ same] using before

theorem mem_cancelTasks {ids : List Nat} {i : Nat}
    (live : ((m.cancelTasks ids).task i).cancelled = false) :
    i ∉ ids ∧ (m.task i).cancelled = false := by
  simp only [Manager.cancelTasks] at live
  split at live
  · cases live
  · rename_i absent
    exact ⟨absent, live⟩

@[simp] theorem phase_cancelTasks (ids : List Nat) (i : Nat) :
    ((m.cancelTasks ids).task i).phase = (m.task i).phase := by
  simp only [Manager.cancelTasks]
  split <;> rfl

@[simp] theorem mrid_cancelTasks (ids : List Nat) (i : Nat) :
    ((m.cancelTasks ids).task i).mrid = (m.task i).mrid := by
  simp only [Manager.cancelTasks]
  split <;> rfl

@[simp] theorem table_cancelTasks (ids : List Nat) : (m.cancelTasks ids).table = m.table := rfl

/-- The timers of the mRID that can still call back are those that `cancel` finds. -/
theorem cancel_cancels (tracked : Tracked m) {current : Option Nat}
    (calls : current.all (fun i => (m.task i).phase = .calling) = true) {i : Nat}
    (waits : (m.task i).phase = .waiting) :
    ((m.cancel current (m.task i).mrid).task i).cancelled = true := by
  rw [← Bool.not_eq_false]
  intro live
  obtain ⟨absent, before⟩ := mem_cancelTasks live
  refine absent (List.mem_filter.mpr ⟨tracked.listed i waits before, ?_⟩)
  rw [decide_eq_true_eq]
  rintro rfl
  simp only [Option.all_some, decide_eq_true_eq] at calls
  rw [calls] at waits
  cases waits

theorem Tracked.cancel (tracked : Tracked m) {current : Option Nat}
    (calls : current.all (fun i => (m.task i).phase = .calling) = true) (mrid : Mrid) :
    Tracked (m.cancel current mrid) where
  unmade i later := by
    simp only [Manager.cancel, phase_cancelTasks]
    exact tracked.unmade i later
  listed i waits live := by
    have waits' : (m.task i).phase = .waiting := by
      simpa only [Manager.cancel, phase_cancelTasks] using waits
    have other : (m.task i).mrid ≠ mrid := by
      rintro rfl
      rw [cancel_cancels tracked calls waits'] at live
      cases live
    have before := tracked.listed i waits' (mem_cancelTasks live).2
    simpa [Manager.cancel, Dict.getD, Dict.get?_erase, other] using before

theorem Tracked.cancelAll (tracked : Tracked m) : Tracked m.cancelAll where
  unmade i later := by
    simp only [Manager.cancelAll, phase_cancelTasks]
    exact tracked.unmade i later
  listed i waits live := by
    obtain ⟨absent, before⟩ := mem_cancelTasks live
    have waits' : (m.task i).phase = .waiting := by
      simpa only [Manager.cancelAll, phase_cancelTasks] using waits
    have within := tracked.listed i waits' before
    cases found : m.table.get? (m.task i).mrid with
    | none => simp [Dict.getD, found] at within
    | some ids =>
        have value : ids ∈ m.table.values := (Dict.mem_values_iff _ _).mpr ⟨_, found⟩
        exact absurd (List.mem_flatten.mpr
          ⟨ids, value, by simpa [Dict.getD, found] using within⟩) absent

theorem Tracked.setPhase (tracked : Tracked m) {i : Nat} (made : (m.task i).phase ≠ .finished)
    {phase : Phase} (waits : phase = .waiting → (m.task i).phase = .waiting) :
    Tracked (m.setPhase i phase) where
  unmade j later := by
    have other : j ≠ i := by
      rintro rfl
      exact made (tracked.unmade j later)
    rw [task_setPhase_ne other]
    exact tracked.unmade j later
  listed j waits' live := by
    by_cases same : j = i
    · subst same
      rw [task_setPhase_self] at waits' live ⊢
      exact tracked.listed j (waits waits') live
    · rw [task_setPhase_ne same] at waits' live ⊢
      exact tracked.listed j waits' live

theorem Tracked.step (tracked : Tracked m) {l : Step} (stepped : timers.step l m = some m') :
    Tracked m' := by
  cases l <;> simp only [timers, Option.ite_none_right_eq_some, Option.some.injEq] at stepped
  case scheduleActivation record => exact stepped ▸ tracked.startTimer _ _
  case scheduleCompletion record => exact stepped ▸ tracked.startTimer _ _
  case scheduleDelayedCallback record now delaySeconds => exact stepped ▸ tracked.startTimer _ _
  case cancel current mrid => exact stepped.2 ▸ tracked.cancel stepped.1 mrid
  case cancelAll => exact stepped ▸ tracked.cancelAll
  case shutdown => exact stepped ▸ ⟨tracked.unmade, tracked.listed⟩
  case look i now state =>
    exact stepped.2 ▸ tracked.setPhase (by rw [stepped.1.1]; decide) fun _ => stepped.1.1
  case unwind i =>
    exact stepped.2 ▸ tracked.setPhase (by rw [stepped.1.1]; decide) fun _ => stepped.1.1
  case returned i =>
    obtain ⟨calls, rfl⟩ := stepped
    exact tracked.setPhase (by rw [calls]; decide) fun waits => by cases waits

/-! ### Cancelled timers -/

/-- What a step can do to a timer: it is not woken again, and it calls back only if it was not
cancelled. -/
structure Moves (before after : Timer) : Prop where
  cancelled : before.cancelled = true → after.cancelled = true
  waits : after.phase = .waiting → before.phase = .waiting
  calls : before.phase = .waiting → after.phase = .calling → before.cancelled = false

theorem Moves.refl (timer : Timer) : Moves timer timer where
  cancelled := id
  waits := id
  calls waits calls := by
    rw [waits] at calls
    cases calls

theorem moves_startTimer {i : Nat} (made : i < m.next) (mrid : Mrid) (target : Int) :
    Moves (m.task i) ((m.startTimer mrid target).task i) := by
  rw [task_startTimer_ne (Nat.ne_of_lt made)]
  exact .refl _

theorem moves_cancelTasks (ids : List Nat) (i : Nat) :
    Moves (m.task i) ((m.cancelTasks ids).task i) where
  cancelled before := by
    rw [← Bool.not_eq_false]
    intro live
    rw [(mem_cancelTasks live).2] at before
    cases before
  waits after := by rwa [phase_cancelTasks] at after
  calls waits calls := by
    rw [phase_cancelTasks, waits] at calls
    cases calls

theorem moves_setPhase (i j : Nat) {phase : Phase}
    (waits : phase = .waiting → (m.task j).phase = .waiting)
    (calls : (m.task j).phase = .waiting → phase = .calling → (m.task j).cancelled = false) :
    Moves (m.task i) ((m.setPhase j phase).task i) := by
  by_cases same : i = j
  · subst same
    rw [task_setPhase_self]
    exact ⟨id, waits, calls⟩
  · rw [task_setPhase_ne same]
    exact .refl _

theorem step_moves {i : Nat} (made : i < m.next) {l : Step}
    (stepped : timers.step l m = some m') : Moves (m.task i) (m'.task i) ∧ i < m'.next := by
  cases l <;> simp only [timers, Option.ite_none_right_eq_some, Option.some.injEq] at stepped
  case scheduleActivation record =>
    exact stepped ▸ ⟨moves_startTimer made _ _, Nat.lt_succ_of_lt made⟩
  case scheduleCompletion record =>
    exact stepped ▸ ⟨moves_startTimer made _ _, Nat.lt_succ_of_lt made⟩
  case scheduleDelayedCallback record now delaySeconds =>
    exact stepped ▸ ⟨moves_startTimer made _ _, Nat.lt_succ_of_lt made⟩
  case cancel current mrid => exact stepped.2 ▸ ⟨moves_cancelTasks _ i, made⟩
  case cancelAll => exact stepped ▸ ⟨moves_cancelTasks _ i, made⟩
  case shutdown => exact stepped ▸ ⟨.refl _, made⟩
  case look j now state =>
    exact stepped.2 ▸ ⟨moves_setPhase i j (fun _ => stepped.1.1) fun _ _ => stepped.1.2, made⟩
  case unwind j =>
    obtain ⟨⟨waits, -⟩, rfl⟩ := stepped
    exact ⟨moves_setPhase i j (fun _ => waits) (fun _ calls => by cases calls), made⟩
  case returned j =>
    obtain ⟨-, rfl⟩ := stepped
    exact ⟨moves_setPhase i j (fun waits => by cases waits) (fun _ calls => by cases calls), made⟩

/-- A timer that will not call back: it was cancelled, or has called. -/
def Silent (m : Manager) (i : Nat) : Prop :=
  i < m.next ∧ ((m.task i).phase ≠ .waiting ∨ (m.task i).cancelled = true)

theorem Silent.step {i : Nat} (silent : Silent m i) {l : Step}
    (stepped : timers.step l m = some m') : Silent m' i := by
  obtain ⟨moves, made⟩ := step_moves silent.1 stepped
  exact ⟨made, silent.2.imp (fun called waits => called (moves.waits waits)) moves.cancelled⟩

theorem Silent.not_calls {i : Nat} (silent : Silent m i) {l : Step}
    (stepped : timers.step l m = some m') : ¬ Calls m i m' := by
  rintro ⟨waits, calls⟩
  have live := (step_moves silent.1 stepped).1.calls waits calls
  rcases silent.2 with called | cancelled
  · exact called waits
  · rw [live] at cancelled
    cases cancelled

/-- `cancel` silences every timer of its mRID made so far. -/
theorem silent_of_cancel (tracked : Tracked m) {current : Option Nat} {mrid : Mrid}
    (stepped : timers.step (.cancel current mrid) m = some m') {i : Nat} (made : i < m.next)
    (own : (m.task i).mrid = mrid) : Silent m' i := by
  simp only [timers, Option.ite_none_right_eq_some, Option.some.injEq] at stepped
  obtain ⟨calls, rfl⟩ := stepped
  subst own
  refine ⟨made, ?_⟩
  by_cases waits : (m.task i).phase = .waiting
  · exact .inr (cancel_cancels tracked calls waits)
  · left
    rwa [Manager.cancel, phase_cancelTasks]

/-! ### What `has_pending` says -/

theorem hasPending_startTimer (mrid q : Mrid) (target : Int) :
    (m.startTimer mrid target).hasPending q = true ↔ q = mrid ∨ m.hasPending q = true := by
  simp only [Manager.hasPending, Manager.startTimer, decide_eq_true_eq, Dict.mem_keys_set]

theorem unfinished_startTimer (tracked : Tracked m) (mrid q : Mrid) (target : Int) :
    (m.startTimer mrid target).Unfinished q ↔ q = mrid ∨ m.Unfinished q := by
  constructor
  · rintro ⟨i, own, live⟩
    by_cases new : i = m.next
    · subst new
      rw [task_startTimer_self] at own
      exact .inl own.symm
    · rw [task_startTimer_ne new] at own live
      exact .inr ⟨i, own, live⟩
  · rintro (rfl | ⟨i, own, live⟩)
    · refine ⟨m.next, by rw [task_startTimer_self], fun ended => ?_⟩
      rw [task_startTimer_self] at ended
      cases ended
    · have old : i ≠ m.next := by
        rintro rfl
        exact live (tracked.unmade _ (Nat.le_refl _))
      exact ⟨i, by rwa [task_startTimer_ne old], by rwa [task_startTimer_ne old]⟩

theorem exact_startTimer (tracked : Tracked m) (right : m.Exact) (mrid : Mrid) (target : Int) :
    (m.startTimer mrid target).Exact := by
  intro q
  rw [hasPending_startTimer, unfinished_startTimer tracked]
  exact or_congr_right (right q)

theorem unfinished_cancelTasks (ids : List Nat) (q : Mrid) :
    (m.cancelTasks ids).Unfinished q ↔ m.Unfinished q := by
  simp only [Manager.Unfinished, mrid_cancelTasks, phase_cancelTasks]

theorem exact_cancel_iff (right : m.Exact) (current : Option Nat) (mrid : Mrid) :
    (m.cancel current mrid).Exact ↔ ¬ m.Unfinished mrid := by
  have pending (q : Mrid) : (m.cancel current mrid).hasPending q = true ↔
      q ≠ mrid ∧ m.hasPending q = true := by
    simp only [Manager.hasPending, Manager.cancel, decide_eq_true_eq, Dict.mem_keys_erase]
  have unfinished (q : Mrid) : (m.cancel current mrid).Unfinished q ↔ m.Unfinished q :=
    unfinished_cancelTasks _ q
  constructor
  · intro exact_ live
    exact ((pending mrid).mp ((exact_ mrid).mpr ((unfinished mrid).mpr live))).1 rfl
  · intro none q
    rw [pending, unfinished, right q]
    exact and_iff_right_of_imp fun live same => none (same ▸ live)

theorem exact_cancelAll_iff : m.cancelAll.Exact ↔ ∀ mrid, ¬ m.Unfinished mrid := by
  refine forall_congr' fun q => ?_
  have pending : ¬ m.cancelAll.hasPending q = true := by
    simp [Manager.hasPending, Manager.cancelAll, Dict.keys, Dict.empty]
  have unfinished : m.cancelAll.Unfinished q ↔ m.Unfinished q := unfinished_cancelTasks _ q
  rw [unfinished, iff_false_left pending]

/-- A timer that goes on changes nothing. -/
theorem exact_setPhase (right : m.Exact) {i : Nat} (live : (m.task i).phase ≠ .finished)
    {phase : Phase} (on : phase ≠ .finished) : (m.setPhase i phase).Exact := by
  intro q
  refine (right q).trans ⟨?_, ?_⟩
  · rintro ⟨j, own, unfinished⟩
    by_cases same : j = i
    · subst same
      exact ⟨j, by rwa [task_setPhase_self], by rwa [task_setPhase_self]⟩
    · exact ⟨j, by rwa [task_setPhase_ne same], by rwa [task_setPhase_ne same]⟩
  · rintro ⟨j, own, unfinished⟩
    by_cases same : j = i
    · subst same
      rw [task_setPhase_self] at own
      exact ⟨j, own, live⟩
    · rw [task_setPhase_ne same] at own unfinished
      exact ⟨j, own, unfinished⟩

theorem unfinished_setPhase_finished (i : Nat) (q : Mrid) :
    (m.setPhase i .finished).Unfinished q ↔ m.Another i q := by
  constructor
  · rintro ⟨j, own, unfinished⟩
    have other : j ≠ i := by
      rintro rfl
      rw [task_setPhase_self] at unfinished
      exact unfinished rfl
    rw [task_setPhase_ne other] at own unfinished
    exact ⟨j, other, own, unfinished⟩
  · rintro ⟨j, other, own, unfinished⟩
    exact ⟨j, by rwa [task_setPhase_ne other], by rwa [task_setPhase_ne other]⟩

theorem exact_finish_iff (right : m.Exact) {i : Nat} (live : (m.task i).phase ≠ .finished) :
    (m.setPhase i .finished).Exact ↔ m.Another i (m.task i).mrid := by
  constructor
  · intro exact_
    exact (unfinished_setPhase_finished i _).mp ((exact_ _).mp ((right _).mpr ⟨i, rfl, live⟩))
  · intro another q
    rw [unfinished_setPhase_finished]
    refine (right q).trans ⟨?_, ?_⟩
    · rintro ⟨j, own, unfinished⟩
      by_cases same : j = i
      · subst same
        exact own ▸ another
      · exact ⟨j, same, own, unfinished⟩
    · rintro ⟨j, -, own, unfinished⟩
      exact ⟨j, own, unfinished⟩

/-- Where `has_pending` is right, it stays so in exactly the steps that spare it. -/
theorem step_exact_iff (tracked : Tracked m) (right : m.Exact) {l : Step}
    (stepped : timers.step l m = some m') : m'.Exact ↔ Spares m l m' := by
  cases l <;> simp only [timers, Option.ite_none_right_eq_some, Option.some.injEq] at stepped <;>
    simp only [Spares, Step.ends, Step.Withdraws, Option.some.injEq, reduceCtorEq,
      false_implies, implies_true, forall_eq', and_true, true_and, true_implies, iff_true]
  case scheduleActivation record => exact stepped ▸ exact_startTimer tracked right _ _
  case scheduleCompletion record => exact stepped ▸ exact_startTimer tracked right _ _
  case scheduleDelayedCallback record now delaySeconds =>
    exact stepped ▸ exact_startTimer tracked right _ _
  case cancel current mrid => exact stepped.2 ▸ exact_cancel_iff right current mrid
  case cancelAll => exact stepped ▸ exact_cancelAll_iff
  case shutdown => exact stepped ▸ right
  case look i now state =>
    obtain ⟨⟨waits, -⟩, rfl⟩ := stepped
    have live : (m.task i).phase ≠ .finished := by rw [waits]; decide
    by_cases ended : (m.task i).look m.shutdown now state = .finished
    · simp only [ended, if_true, Option.some.injEq, forall_eq']
      exact exact_finish_iff right live
    · simp only [ended, if_false, reduceCtorEq, false_implies, implies_true, iff_true]
      exact exact_setPhase right live ended
  case unwind i =>
    obtain ⟨⟨waits, -⟩, rfl⟩ := stepped
    exact exact_finish_iff right (by rw [waits]; decide)
  case returned i =>
    obtain ⟨calls, rfl⟩ := stepped
    exact exact_finish_iff right (by rw [calls]; decide)

theorem tracked_of_run {ok : Manager → Step → Manager → Prop} (run : timers.Run ok .fresh m) :
    Tracked m :=
  run.keeps (fun _ _ _ stepped _ tracked => tracked.step stepped) tracked_fresh

theorem exact_fresh : Manager.fresh.Exact := by
  intro mrid
  constructor
  · intro pending
    simp [Manager.hasPending, Manager.fresh, Dict.keys, Dict.empty] at pending
  · rintro ⟨i, -, unfinished⟩
    exact absurd rfl unfinished

theorem exact_of_spared (run : timers.Run Spares .fresh m) : m.Exact := by
  have both : Tracked m ∧ m.Exact :=
    run.keeps (P := fun (m : Manager) => Tracked m ∧ m.Exact) (fun _ _ _ stepped spares both =>
      ⟨both.1.step stepped, (step_exact_iff both.1 both.2 stepped).mpr spares⟩)
      ⟨tracked_fresh, exact_fresh⟩
  exact both.2

/-- In a run in which no timer ends as the last of its mRID and none is cancelled, `has_pending` is
right throughout, and the next other step makes it wrong. In any run, no timer made before a
`cancel` of its mRID calls back after it. -/
theorem bookkeeping_exact_iff (run : timers.Run Machine.Free .fresh m) :
    (timers.Run Spares .fresh m → m.Exact) ∧
      (m.Exact → ∀ l m', timers.step l m = some m' → (m'.Exact ↔ Spares m l m')) ∧
      ∀ current mrid m', timers.step (.cancel current mrid) m = some m' →
        ∀ i < m.next, (m.task i).mrid = mrid →
          ∀ u, timers.Run Machine.Free m' u →
            ∀ l v, timers.step l u = some v → ¬ Calls u i v := by
  have tracked : Tracked m := tracked_of_run run
  refine ⟨exact_of_spared, fun right l m' stepped => step_exact_iff tracked right stepped, ?_⟩
  intro current mrid m' stepped i made own u later l v last
  have silent : Silent u i :=
    later.keeps (P := fun v => Silent v i) (fun _ _ _ stepped' _ silent => silent.step stepped')
      (silent_of_cancel tracked stepped made own)
  exact silent.not_calls last

end Steps

/-- An event that starts at once. -/
def startingNow : EventRecord := { EventRecord.blank with mrid := 1 }

/-- Its activation is called. -/
def activating : List Step := [.scheduleActivation startingNow, .look 0 0 .scheduled]

/-- The manager after these steps. -/
def after (ls : List Step) : Manager := (timers.exec .fresh ls).getD .fresh

theorem run_after {ls : List Step} (executed : (timers.exec .fresh ls).isSome = true) :
    timers.Run Machine.Free .fresh (after ls) := by
  obtain ⟨m, done⟩ := Option.isSome_iff_exists.mp executed
  have same : after ls = m := by
    rw [after, done]
    rfl
  exact same ▸ Machine.run_of_exec ls done

theorem bookkeeping_exact_activating :
    (timers.Run Spares .fresh (after activating) → (after activating).Exact) ∧
      ((after activating).Exact → ∀ l m', timers.step l (after activating) = some m' →
        (m'.Exact ↔ Spares (after activating) l m')) ∧
      ∀ current mrid m', timers.step (.cancel current mrid) (after activating) = some m' →
        ∀ i < (after activating).next, ((after activating).task i).mrid = mrid →
          ∀ u, timers.Run Machine.Free m' u →
            ∀ l v, timers.step l u = some v → ¬ Calls u i v :=
  bookkeeping_exact_iff (run_after (by decide))

/-- The activation returns, and the event still has a pending timer; or it cancels the event's
timers itself, and has none while it runs on. -/
theorem pending_wrong :
    (∃ m, timers.Run Machine.Free .fresh m ∧ m.hasPending 1 = true ∧ ¬ m.Unfinished 1) ∧
      ∃ m, timers.Run Machine.Free .fresh m ∧ m.hasPending 1 = false ∧ m.Unfinished 1 := by
  constructor
  · refine ⟨after (activating ++ [.returned 0]), run_after (by decide), by decide, ?_⟩
    rintro ⟨i, -, unfinished⟩
    refine unfinished ?_
    by_cases first : i = 0
    · subst first
      decide
    · exact congrArg Timer.phase ((task_setPhase_ne first).trans ((task_setPhase_ne first).trans
        (task_startTimer_ne first)))
  · exact ⟨after (activating ++ [.cancel (some 0) 1]), run_after (by decide), by decide, 0,
      by decide, by decide⟩

end Py20305.Timers
