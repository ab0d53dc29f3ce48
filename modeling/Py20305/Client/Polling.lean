import Mathlib.Algebra.Order.Ring.Rat
import Py20305.Lib.AsyncLock
import Py20305.Lib.Machine

/-!
`PollScheduler` (`client/polling.py`).

A loop looks at its key's lock and skips its turn where it is held. The lock outlives the loops of
its key: one that is replaced while its callback runs holds it until it has unwound, and the loop
that replaced it skips its turn till then (`skips_right_iff`).

A cancelled task unwinds when it likes. Left out: what a callback raises and the reports of it, how
long a wait lasts, and the throttling of the log.
-/

namespace Py20305.Polling

/-! ### The scheduler -/

abbrev Key := String

structure Settings where
  heartbeatEnabled : Bool
  heartbeatSeconds : Option ℚ

/-- `_HEARTBEAT_CEILING_S`. -/
def heartbeatCeiling : ℚ := 900

/-- Where a task is. -/
inductive Phase where
  /-- A loop that has not started, or waits out its interval. -/
  | waiting
  /-- It waits for the lock. -/
  | queued
  /-- Its callback runs, under the lock. -/
  | running
  | ended
  deriving DecidableEq, Repr

/-- A `_poll_loop`, or a call of `run_exclusive`. -/
structure Task where
  key : Key
  exclusive : Bool
  phase : Phase
  cancelled : Bool

/-- The scheduler, with the tasks made so far; those below `next` have been. -/
structure Scheduler where
  shutdown : Bool
  task : Nat → Task
  next : Nat
  /-- `_tasks`. -/
  current : Key → Option Nat
  lock : Key → AsyncLock Nat
  suppressed : Key → Bool
  interval : Key → Option ℚ
  lastRun : Key → ℚ

def Scheduler.fresh : Scheduler where
  shutdown := false
  task _ := ⟨"", false, .ended, false⟩
  next := 0
  current _ := none
  lock _ := .free
  suppressed _ := false
  interval _ := none
  lastRun _ := 0

namespace Scheduler

variable (settings : Settings) (s : Scheduler)

/-- `_heartbeat_due`. -/
def heartbeatDue (key : Key) (now : ℚ) : Bool :=
  settings.heartbeatEnabled &&
    max (settings.heartbeatSeconds.getD heartbeatCeiling) ((s.interval key).getD 0) ≤
      now - s.lastRun key

/-- The key is covered by a subscription, and its heartbeat is not due. -/
def quiet (key : Key) (now : ℚ) : Bool := s.suppressed key && !s.heartbeatDue settings key now

def isCancelled (i : Nat) : Bool := (s.task i).cancelled

def make (task : Task) : Scheduler :=
  { s with task := Function.update s.task s.next task, next := s.next + 1 }

def setPhase (i : Nat) (phase : Phase) : Scheduler :=
  { s with task := Function.update s.task i { s.task i with phase := phase } }

def cancelTask (i : Nat) : Scheduler :=
  { s with task := Function.update s.task i { s.task i with cancelled := true } }

def setLock (key : Key) (lock : AsyncLock Nat) : Scheduler :=
  { s with lock := Function.update s.lock key lock }

/-- The callback is called, under the lock. -/
def callBack (i : Nat) (key : Key) (now : ℚ) (lock : AsyncLock Nat) : Scheduler :=
  { (s.setPhase i .running).setLock key lock with
    lastRun := Function.update s.lastRun key now }

/-- `async with lock`. -/
def enter (i : Nat) (key : Key) (now : ℚ) : Scheduler :=
  if (s.lock key).isOpen s.isCancelled then s.callBack i key now ((s.lock key).take i)
  else (s.setPhase i .queued).setLock key ((s.lock key).enqueue i)

/-- `schedule`. -/
def schedule (key : Key) (interval now : ℚ) : Scheduler :=
  let replaced := match s.current key with
    | none => s
    | some i => s.cancelTask i
  { replaced.make ⟨key, false, .waiting, false⟩ with
    current := Function.update s.current key (some s.next)
    interval := Function.update s.interval key (some interval)
    lastRun := Function.update s.lastRun key now }

/-- One round of `_poll_loop`, up to the callback. -/
def look (i : Nat) (now : ℚ) : Scheduler :=
  let key := (s.task i).key
  if s.shutdown then s.setPhase i .ended
  else if s.quiet settings key now then s
  else if (s.lock key).locked then s
  else s.enter i key now

/-- The callback is over, and the lock released. A loop goes on unless it was cancelled. -/
def callbackEnds (i : Nat) : Scheduler :=
  let ends := (s.task i).exclusive || (s.task i).cancelled
  (s.setPhase i (if ends then .ended else .waiting)).setLock (s.task i).key
    (s.lock (s.task i).key).release

/-- A cancelled task ends, out of the lock's queue if it is in it. -/
def unwind (i : Nat) : Scheduler :=
  (s.setPhase i .ended).setLock (s.task i).key ((s.lock (s.task i).key).leave i)

/-- `run_exclusive`, up to the callback or the wait for the lock. -/
def runExclusive (key : Key) (now : ℚ) : Scheduler :=
  (s.make ⟨key, true, .waiting, false⟩).enter s.next key now

/-- `cancel_all`, up to its wait. -/
def cancelAll : Scheduler :=
  { s with
    shutdown := true
    task := fun i =>
      if s.current (s.task i).key = some i then { s.task i with cancelled := true } else s.task i }

end Scheduler

inductive Step where
  | schedule (key : Key) (interval now : ℚ)
  | setInterval (key : Key) (interval : ℚ)
  | suppress (key : Key)
  | unsuppress (key : Key)
  | cancelAll
  /-- `cancel_all` is over. -/
  | cleared
  | look (i : Nat) (now : ℚ)
  /-- The next waiter of the key's lock goes on. -/
  | granted (key : Key) (now : ℚ)
  | callbackEnds (i : Nat)
  | runExclusive (key : Key) (now : ℚ)
  /-- The caller of `run_exclusive` is cancelled. -/
  | cancelCall (i : Nat)
  | unwind (i : Nat)

/-- The scheduler as a machine. -/
def scheduler (settings : Settings) : Machine where
  State := Scheduler
  Label := Step
  step
    | .schedule key interval now, s => some (s.schedule key interval now)
    | .setInterval key interval, s =>
        if (s.interval key).isSome then
          some { s with interval := Function.update s.interval key (some interval) }
        else some s
    | .suppress key, s => some { s with suppressed := Function.update s.suppressed key true }
    | .unsuppress key, s => some { s with suppressed := Function.update s.suppressed key false }
    | .cancelAll, s => some s.cancelAll
    | .cleared, s => if s.shutdown then some { s with current := fun _ => none } else none
    | .look i now, s =>
        if (s.task i).phase = .waiting ∧ (s.task i).cancelled = false then
          some (s.look settings i now)
        else none
    | .granted key now, s =>
        ((s.lock key).next s.isCancelled).map fun i =>
          s.callBack i key now ((s.lock key).grant i)
    | .callbackEnds i, s =>
        if (s.task i).phase = .running then some (s.callbackEnds i) else none
    | .runExclusive key now, s => some (s.runExclusive key now)
    | .cancelCall i, s =>
        if (s.task i).exclusive = true ∧ (s.task i).phase ≠ .ended then some (s.cancelTask i)
        else none
    | .unwind i, s =>
        if (s.task i).cancelled = true ∧
            ((s.task i).phase = .waiting ∨ (s.task i).phase = .queued) then
          some (s.unwind i)
        else none

/-! ### Turns that are skipped -/

namespace Scheduler

variable (settings : Settings) (s : Scheduler)

/-- A loop that looks at this time skips its turn, as the lock is held. -/
structure Skips (i : Nat) (now : ℚ) : Prop where
  phase : (s.task i).phase = .waiting
  live : (s.task i).cancelled = false
  on : s.shutdown = false
  due : s.quiet settings (s.task i).key now = false
  locked : (s.lock (s.task i).key).locked = true

/-- An execution of a callback that was not cancelled, or a call of `run_exclusive`. -/
def InProgress (i : Nat) : Prop :=
  (s.task i).phase = .running ∧ ((s.task i).exclusive = true ∨ (s.task i).cancelled = false)

/-- A current loop skips its turn only for one of these. -/
def SkipsRight : Prop :=
  ∀ key i now, s.current key = some i → s.Skips settings i now →
    ∃ h, (s.lock key).holder = some h ∧ s.InProgress h

end Scheduler

/-- No loop is replaced while it holds the lock. -/
def Idle (s : Scheduler) : Step → Scheduler → Prop
  | .schedule key _ _, _ =>
      s.shutdown = false → ∀ i, s.current key = some i → (s.lock key).holder ≠ some i
  | _, _ => True

/-- A key that is scheduled is not covered by a subscription, or has its heartbeats. -/
def Polled (settings : Settings) (s : Scheduler) : Step → Prop
  | .schedule key _ _ =>
      s.shutdown = false ∧ (s.suppressed key = false ∨ settings.heartbeatEnabled = true)
  | _ => True

/-! ### What every step keeps -/

/-- Tasks to come have not been made; who waits for a lock or holds it is a task of its key, and a
holder's callback runs; a current loop is a loop of its key. -/
structure Sound (s : Scheduler) : Prop where
  unmade : ∀ i, s.next ≤ i → (s.task i).phase = .ended
  waits : ∀ key, ∀ i ∈ (s.lock key).waiters, i < s.next ∧ (s.task i).key = key
  holds : ∀ key i, (s.lock key).holder = some i →
    (s.task i).phase = .running ∧ (s.task i).key = key
  loops : ∀ key i, s.current key = some i →
    i < s.next ∧ (s.task i).key = key ∧ (s.task i).exclusive = false

/-- Who holds a lock is in progress. -/
def Fair (s : Scheduler) : Prop := ∀ key h, (s.lock key).holder = some h → s.InProgress h

section Steps

variable {settings : Settings} {s t : Scheduler}

theorem Sound.made (sound : Sound s) {i : Nat} (live : (s.task i).phase ≠ .ended) : i < s.next := by
  by_contra unmade
  exact live (sound.unmade i (Nat.le_of_not_lt unmade))

theorem Sound.holder_made (sound : Sound s) {key : Key} {i : Nat}
    (held : (s.lock key).holder = some i) : i < s.next :=
  sound.made (by rw [(sound.holds key i held).1]; decide)

theorem task_make_ne {task : Task} {i : Nat} (old : i < s.next) : (s.make task).task i = s.task i :=
  Function.update_of_ne (Nat.ne_of_lt old) _ _

@[simp] theorem task_make_self (task : Task) : (s.make task).task s.next = task :=
  Function.update_self ..

@[simp] theorem task_cancelTask (i j : Nat) : (s.cancelTask i).task j =
    if j = i then { s.task i with cancelled := true } else s.task j := by
  by_cases same : j = i
  · subst same
    rw [if_pos rfl]
    exact Function.update_self ..
  · rw [if_neg same]
    exact Function.update_of_ne same _ _

theorem task_setPhase_ne {i j : Nat} {phase : Phase} (other : j ≠ i) :
    (s.setPhase i phase).task j = s.task j :=
  Function.update_of_ne other _ _

@[simp] theorem task_setPhase_self (i : Nat) (phase : Phase) :
    (s.setPhase i phase).task i = { s.task i with phase := phase } :=
  Function.update_self ..

@[simp] theorem lock_setPhase (i : Nat) (phase : Phase) : (s.setPhase i phase).lock = s.lock := rfl

@[simp] theorem task_setLock (key : Key) (lock : AsyncLock Nat) :
    (s.setLock key lock).task = s.task := rfl

@[simp] theorem lock_setLock_self (key : Key) (lock : AsyncLock Nat) :
    (s.setLock key lock).lock key = lock :=
  Function.update_self ..

theorem lock_setLock_ne {key other : Key} {lock : AsyncLock Nat} (apart : other ≠ key) :
    (s.setLock key lock).lock other = s.lock other :=
  Function.update_of_ne apart _ _

theorem Sound.make (sound : Sound s) (task : Task) : Sound (s.make task) where
  unmade i later := by
    have old : i ≠ s.next := Nat.ne_of_gt later
    have same : (s.make task).task i = s.task i := Function.update_of_ne old _ _
    rw [same]
    exact sound.unmade i (Nat.le_of_lt later)
  waits key i waits := by
    obtain ⟨old, own⟩ := sound.waits key i waits
    exact ⟨Nat.lt_succ_of_lt old, by rwa [task_make_ne old]⟩
  holds key i held := by
    rw [task_make_ne (sound.holder_made held)]
    exact sound.holds key i held
  loops key i listed := by
    obtain ⟨old, own⟩ := sound.loops key i listed
    exact ⟨Nat.lt_succ_of_lt old, by rwa [task_make_ne old]⟩

/-- Cancelling tasks changes nothing of this. -/
theorem Sound.cancels (sound : Sound s) (task : Nat → Task)
    (same : ∀ i, (task i).key = (s.task i).key ∧ (task i).phase = (s.task i).phase ∧
      (task i).exclusive = (s.task i).exclusive) : Sound { s with task := task } where
  unmade i later := (same i).2.1.trans (sound.unmade i later)
  waits key i waits := ⟨(sound.waits key i waits).1, (same i).1.trans (sound.waits key i waits).2⟩
  holds key i held :=
    ⟨(same i).2.1.trans (sound.holds key i held).1, (same i).1.trans (sound.holds key i held).2⟩
  loops key i listed :=
    ⟨(sound.loops key i listed).1, (same i).1.trans (sound.loops key i listed).2.1,
      (same i).2.2.trans (sound.loops key i listed).2.2⟩

theorem Sound.cancelTask (sound : Sound s) (i : Nat) : Sound (s.cancelTask i) := by
  refine sound.cancels _ fun j => ?_
  by_cases same : j = i
  · subst same
    simp [Function.update_self]
  · simp [Function.update_of_ne same]

theorem Sound.schedule (sound : Sound s) (key : Key) (interval now : ℚ) :
    Sound (s.schedule key interval now) := by
  have made (r : Scheduler) (sound : Sound r) (next : r.next = s.next) :
      Sound { r.make ⟨key, false, .waiting, false⟩ with
        current := Function.update r.current key (some s.next) } := by
    have before := sound.make ⟨key, false, .waiting, false⟩
    refine ⟨before.unmade, before.waits, before.holds, fun key' i listed => ?_⟩
    by_cases own : key' = key
    · subst own
      have last : r.next = i := next.trans (Option.some.inj
        ((Function.update_self key' (some s.next) r.current).symm.trans listed))
      subst last
      exact ⟨Nat.lt_succ_self _, by simp [task_make_self]⟩
    · exact before.loops key' i ((Function.update_of_ne own _ _).symm.trans listed)
  unfold Scheduler.schedule
  cases listed : s.current key with
  | none =>
      have done := made s sound rfl
      exact ⟨done.unmade, done.waits, done.holds, done.loops⟩
  | some i =>
      have done := made (s.cancelTask i) (sound.cancelTask i) rfl
      exact ⟨done.unmade, done.waits, done.holds, done.loops⟩

/-- A task moves on, with the lock of its key. -/
theorem Sound.moves (sound : Sound s) {i : Nat} (made : i < s.next) (phase : Phase)
    (lock : AsyncLock Nat)
    (waiters : ∀ j ∈ lock.waiters, j ∈ (s.lock (s.task i).key).waiters ∨ j = i)
    (holder : ∀ j, lock.holder = some j → (j = i ∧ phase = .running) ∨
      (j ≠ i ∧ (s.lock (s.task i).key).holder = some j)) :
    Sound ((s.setPhase i phase).setLock (s.task i).key lock) := by
  have own (j : Nat) : ((s.setPhase i phase).task j).key = (s.task j).key ∧
      ((s.setPhase i phase).task j).exclusive = (s.task j).exclusive := by
    by_cases same : j = i
    · subst same
      rw [task_setPhase_self]
      exact ⟨rfl, rfl⟩
    · rw [task_setPhase_ne same]
      exact ⟨rfl, rfl⟩
  refine ⟨fun j later => ?_, fun key j waits => ?_, fun key j held => ?_, fun key j listed => ?_⟩
  · rw [task_setLock, task_setPhase_ne (Nat.ne_of_gt (Nat.lt_of_lt_of_le made later))]
    exact sound.unmade j later
  · rw [task_setLock, (own j).1]
    by_cases here : key = (s.task i).key
    · subst here
      rw [lock_setLock_self] at waits
      rcases waiters j waits with before | rfl
      · exact sound.waits _ j before
      · exact ⟨made, rfl⟩
    · rw [lock_setLock_ne here] at waits
      exact sound.waits key j waits
  · rw [task_setLock]
    by_cases here : key = (s.task i).key
    · subst here
      rw [lock_setLock_self] at held
      rcases holder j held with ⟨rfl, rfl⟩ | ⟨other, before⟩
      · rw [task_setPhase_self]
        exact ⟨rfl, rfl⟩
      · rw [task_setPhase_ne other]
        exact sound.holds _ j before
    · rw [lock_setLock_ne here] at held
      have before : (s.lock key).holder = some j := held
      have other : j ≠ i := by
        rintro rfl
        exact here (sound.holds key j before).2.symm
      rw [task_setPhase_ne other]
      exact sound.holds key j before
  · rw [task_setLock, (own j).1, (own j).2]
    exact sound.loops key j listed

/-- What is in progress stays so, unless it is the task that moves. -/
theorem Fair.moves (sound : Sound s) (fair : Fair s) {i : Nat} (phase : Phase)
    (lock : AsyncLock Nat)
    (holder : ∀ j, lock.holder = some j →
      (j = i ∧ phase = .running ∧ ((s.task i).exclusive = true ∨ (s.task i).cancelled = false)) ∨
        (j ≠ i ∧ (s.lock (s.task i).key).holder = some j)) :
    Fair ((s.setPhase i phase).setLock (s.task i).key lock) := by
  intro key j held
  by_cases here : key = (s.task i).key
  · subst here
    rw [lock_setLock_self] at held
    rcases holder j held with ⟨rfl, rfl, live⟩ | ⟨other, before⟩
    · rw [Scheduler.InProgress, task_setLock, task_setPhase_self]
      exact ⟨rfl, live⟩
    · rw [Scheduler.InProgress, task_setLock, task_setPhase_ne other]
      exact fair _ j before
  · rw [lock_setLock_ne here] at held
    have before : (s.lock key).holder = some j := held
    have other : j ≠ i := by
      rintro rfl
      exact here (sound.holds key j before).2.symm
    rw [Scheduler.InProgress, task_setLock, task_setPhase_ne other]
    exact fair key j before

/-! ### Steps -/

/-- A step that leaves the invariants, who is in progress, and the shutdown flag. -/
structure Kept (s t : Scheduler) : Prop where
  sound : Sound t
  fair : Fair s → Fair t
  shutdown : t.shutdown = s.shutdown

theorem kept_callBack (sound : Sound s) {i : Nat} (made : i < s.next)
    (live : (s.task i).exclusive = true ∨ (s.task i).cancelled = false) (now : ℚ)
    {lock : AsyncLock Nat} (holder : lock.holder = some i)
    (waiters : ∀ j ∈ lock.waiters, j ∈ (s.lock (s.task i).key).waiters) :
    Kept s (s.callBack i (s.task i).key now lock) := by
  have moved := sound.moves made .running lock
    (fun j waits => .inl (waiters j waits))
    fun j held => .inl ⟨Option.some.inj (held.symm.trans holder), rfl⟩
  refine ⟨⟨moved.unmade, moved.waits, moved.holds, moved.loops⟩, fun fair => ?_, rfl⟩
  exact Fair.moves sound fair .running lock
    fun j held => .inl ⟨Option.some.inj (held.symm.trans holder), rfl, live⟩

theorem kept_enter (sound : Sound s) {i : Nat} (made : i < s.next)
    (idle : (s.task i).phase ≠ .running)
    (live : (s.task i).exclusive = true ∨ (s.task i).cancelled = false) (now : ℚ) :
    Kept s (s.enter i (s.task i).key now) := by
  unfold Scheduler.enter
  split
  · exact kept_callBack sound made live now rfl fun j waits => waits
  · have others (j : Nat) (held : (s.lock (s.task i).key).holder = some j) :
        j ≠ i ∧ (s.lock (s.task i).key).holder = some j := by
      refine ⟨?_, held⟩
      rintro rfl
      exact idle (sound.holds _ j held).1
    refine ⟨sound.moves made _ _ (fun j waits => ?_) fun j held => .inr (others j held),
      fun fair => Fair.moves sound fair _ _ fun j held => .inr (others j held), rfl⟩
    rcases List.mem_append.mp waits with before | last
    · exact .inl before
    · exact .inr (List.mem_singleton.mp last)

theorem Kept.trans {u : Scheduler} (first : Kept s t) (second : Kept t u) : Kept s u :=
  ⟨second.sound, second.fair ∘ first.fair, second.shutdown.trans first.shutdown⟩

theorem kept_make (sound : Sound s) (task : Task) : Kept s (s.make task) := by
  refine ⟨sound.make task, fun fair key h held => ?_, rfl⟩
  rw [Scheduler.InProgress, task_make_ne (sound.holder_made held)]
  exact fair key h held

theorem kept_runExclusive (sound : Sound s) (key : Key) (now : ℚ) :
    Kept s (s.runExclusive key now) := by
  have made := kept_make sound ⟨key, true, .waiting, false⟩
  have entered := kept_enter made.sound (i := s.next) (Nat.lt_succ_self _)
    (by rw [task_make_self]; exact fun same => by cases same)
    (.inl (by rw [task_make_self])) now
  rw [task_make_self] at entered
  exact made.trans entered

/-- A task that leaves the queue, or the lock. -/
theorem kept_ends (sound : Sound s) {i : Nat} (made : i < s.next) (phase : Phase)
    (lock : AsyncLock Nat)
    (waiters : ∀ j ∈ lock.waiters, j ∈ (s.lock (s.task i).key).waiters)
    (holder : ∀ j, lock.holder = some j → j ≠ i ∧ (s.lock (s.task i).key).holder = some j) :
    Kept s ((s.setPhase i phase).setLock (s.task i).key lock) :=
  ⟨sound.moves made _ _ (fun j waits => .inl (waiters j waits)) fun j held => .inr (holder j held),
    fun fair => Fair.moves sound fair _ _ fun j held => .inr (holder j held), rfl⟩

theorem kept_look (sound : Sound s) {i : Nat} (waits : (s.task i).phase = .waiting)
    (live : (s.task i).cancelled = false) (now : ℚ) : Kept s (s.look settings i now) := by
  have made : i < s.next := sound.made (by rw [waits]; exact fun same => by cases same)
  unfold Scheduler.look
  dsimp only
  split
  · have off (j : Nat) (held : (s.lock (s.task i).key).holder = some j) : j ≠ i := by
      rintro rfl
      rw [(sound.holds _ j held).1] at waits
      cases waits
    have ended := kept_ends sound made .ended (s.lock (s.task i).key) (fun j within => within)
      fun j held => ⟨off j held, held⟩
    have same : (s.setPhase i .ended).setLock (s.task i).key (s.lock (s.task i).key) =
        s.setPhase i .ended := by
      rw [Scheduler.setLock, lock_setPhase, Function.update_eq_self]
      rfl
    rwa [same] at ended
  split
  · exact ⟨sound, id, rfl⟩
  split
  · exact ⟨sound, id, rfl⟩
  · exact kept_enter sound made (by rw [waits]; exact fun same => by cases same) (.inr live) now

theorem fair_cancelTask (fair : Fair s) {i : Nat}
    (idle : ∀ key, (s.lock key).holder ≠ some i) : Fair (s.cancelTask i) := by
  intro key h held
  have other : h ≠ i := by
    rintro rfl
    exact idle key held
  rw [Scheduler.InProgress, task_cancelTask, if_neg other]
  exact fair key h held

theorem fair_schedule (sound : Sound s) (fair : Fair s) {key : Key}
    (idle : ∀ i, s.current key = some i → (s.lock key).holder ≠ some i) (interval now : ℚ) :
    Fair (s.schedule key interval now) := by
  unfold Scheduler.schedule
  cases listed : s.current key with
  | none => exact (kept_make sound _).fair fair
  | some i =>
      refine (kept_make (sound.cancelTask i) _).fair (fair_cancelTask fair fun other held => ?_)
      have own := (sound.loops key i listed).2.1
      rw [(sound.holds other i held).2] at own
      exact idle i listed (own ▸ held)

/-- Every step keeps the invariants, and all but the replacement of a loop that holds the lock
keep it that who holds a lock is in progress. -/
theorem step_keeps (sound : Sound s) {l : Step} (stepped : (scheduler settings).step l s = some t) :
    Sound t ∧ (s.shutdown = true ∨ Fair s → Idle s l t → t.shutdown = true ∨ Fair t) := by
  have of_kept (kept : Kept s t) :
      Sound t ∧ (s.shutdown = true ∨ Fair s → Idle s l t → t.shutdown = true ∨ Fair t) :=
    ⟨kept.sound, fun before _ => before.imp kept.shutdown.trans kept.fair⟩
  cases l <;> simp only [scheduler, Option.ite_none_right_eq_some, Option.some.injEq] at stepped
  case schedule key interval now =>
    subst stepped
    refine ⟨sound.schedule key interval now, fun before idle => ?_⟩
    by_cases off : s.shutdown = true
    · left
      unfold Scheduler.schedule
      cases s.current key <;> exact off
    · rw [Bool.not_eq_true] at off
      have fair : Fair s := before.resolve_left (by rw [off]; exact Bool.false_ne_true)
      exact .inr (fair_schedule sound fair (idle off) interval now)
  case setInterval key interval =>
    split at stepped
    · cases stepped
      exact of_kept ⟨⟨sound.unmade, sound.waits, sound.holds, sound.loops⟩, id, rfl⟩
    · cases stepped
      exact of_kept ⟨sound, id, rfl⟩
  case suppress key =>
    subst stepped
    exact of_kept ⟨⟨sound.unmade, sound.waits, sound.holds, sound.loops⟩, id, rfl⟩
  case unsuppress key =>
    subst stepped
    exact of_kept ⟨⟨sound.unmade, sound.waits, sound.holds, sound.loops⟩, id, rfl⟩
  case cancelAll =>
    subst stepped
    have cancelled := sound.cancels s.cancelAll.task fun i => by
      simp only [Scheduler.cancelAll]
      split <;> exact ⟨rfl, rfl, rfl⟩
    exact ⟨⟨cancelled.unmade, cancelled.waits, cancelled.holds, cancelled.loops⟩,
      fun _ _ => .inl rfl⟩
  case cleared =>
    obtain ⟨-, rfl⟩ := stepped
    exact of_kept ⟨⟨sound.unmade, sound.waits, sound.holds, fun key i listed => by cases listed⟩,
      id, rfl⟩
  case look i now =>
    obtain ⟨⟨waits, live⟩, rfl⟩ := stepped
    exact of_kept (kept_look sound waits live now)
  case granted key now =>
    obtain ⟨i, next, rfl⟩ := Option.map_eq_some_iff.mp stepped
    obtain ⟨-, waits, live⟩ := AsyncLock.next_eq_some next
    obtain ⟨made, rfl⟩ := sound.waits key i waits
    exact of_kept (kept_callBack sound made (.inr live) now rfl fun j within =>
      List.mem_of_mem_erase within)
  case callbackEnds i =>
    obtain ⟨runs, rfl⟩ := stepped
    exact of_kept (kept_ends sound (sound.made (by rw [runs]; exact fun same => by cases same)) _ _
      (fun j within => within) fun j held => by cases held)
  case runExclusive key now =>
    subst stepped
    exact of_kept (kept_runExclusive sound key now)
  case cancelCall i =>
    obtain ⟨⟨exclusive, -⟩, rfl⟩ := stepped
    refine of_kept ⟨sound.cancelTask i, fun fair key h held => ?_, rfl⟩
    rw [Scheduler.InProgress, task_cancelTask]
    split
    · rename_i same
      subst same
      exact ⟨(fair key h held).1, .inl exclusive⟩
    · exact fair key h held
  case unwind i =>
    obtain ⟨⟨-, idle⟩, rfl⟩ := stepped
    have off (j : Nat) (held : (s.lock (s.task i).key).holder = some j) : j ≠ i := by
      rintro rfl
      rw [(sound.holds _ j held).1] at idle
      rcases idle with same | same <;> cases same
    refine of_kept (kept_ends sound (sound.made ?_) .ended _
      (fun j within => List.mem_of_mem_erase within) fun j held => ⟨off j held, held⟩)
    rcases idle with same | same <;> rw [same] <;> exact fun other => by cases other

theorem sound_fresh : Sound .fresh where
  unmade _ _ := rfl
  waits _ _ waits := by cases waits
  holds _ _ held := by cases held
  loops _ _ listed := by cases listed

theorem sound_of_run (run : (scheduler settings).Run Idle .fresh s) :
    Sound s ∧ (s.shutdown = true ∨ Fair s) :=
  run.keeps (P := fun (s : Scheduler) => Sound s ∧ (s.shutdown = true ∨ Fair s))
    (fun _ _ _ stepped idle before =>
      ⟨(step_keeps before.1 stepped).1, (step_keeps before.1 stepped).2 before.2 idle⟩)
    ⟨sound_fresh, .inr fun _ _ held => by cases held⟩

theorem skipsRight_of_fair (sound : Sound s) (fair : s.shutdown = true ∨ Fair s) :
    s.SkipsRight settings := by
  intro key i now listed skips
  have own := (sound.loops key i listed).2.1
  have locked := skips.locked
  rw [own, AsyncLock.locked, Option.isSome_iff_exists] at locked
  obtain ⟨h, held⟩ := locked
  have on : Fair s := fair.resolve_left (by rw [skips.on]; exact Bool.false_ne_true)
  exact ⟨h, held, on key h held⟩

/-- A loop replaced while it holds the lock holds it against the one that replaced it. -/
theorem not_skipsRight_schedule (sound : Sound s) {key : Key} {i : Nat} (on : s.shutdown = false)
    (polled : s.suppressed key = false ∨ settings.heartbeatEnabled = true)
    (listed : s.current key = some i) (held : (s.lock key).holder = some i) (interval now : ℚ) :
    ¬ (s.schedule key interval now).SkipsRight settings := by
  obtain ⟨made, own, loop⟩ := sound.loops key i listed
  let t := s.schedule key interval now
  have frame : t.lock = s.lock ∧ t.shutdown = s.shutdown ∧ t.suppressed = s.suppressed ∧
      t.task s.next = ⟨key, false, .waiting, false⟩ ∧ (t.task i).exclusive = false ∧
      (t.task i).cancelled = true := by
    simp only [t, Scheduler.schedule, listed]
    have after : ((s.cancelTask i).make ⟨key, false, .waiting, false⟩).task i =
        { s.task i with cancelled := true } :=
      (task_make_ne (s := s.cancelTask i) made).trans (by rw [task_cancelTask, if_pos rfl])
    refine ⟨rfl, rfl, rfl, task_make_self (s := s.cancelTask i) _, ?_, ?_⟩
    · exact (congrArg Task.exclusive after).trans loop
    · exact congrArg Task.cancelled after
  obtain ⟨lock, shutdown, suppressed, new, exclusive, cancelled⟩ := frame
  have due : ∃ later, t.quiet settings key later = false := by
    rcases polled with uncovered | enabled
    · exact ⟨now, by rw [Scheduler.quiet, suppressed, uncovered, Bool.false_and]⟩
    · refine ⟨max (settings.heartbeatSeconds.getD heartbeatCeiling) ((t.interval key).getD 0) +
        t.lastRun key, ?_⟩
      simp [Scheduler.quiet, Scheduler.heartbeatDue, enabled]
  obtain ⟨later, due⟩ := due
  intro right
  have current : t.current key = some s.next := Function.update_self ..
  have skips : t.Skips settings s.next later := by
    refine ⟨by rw [new], by rw [new], shutdown.trans on, by rw [new]; exact due, ?_⟩
    rw [new, lock, AsyncLock.locked, held]
    rfl
  obtain ⟨h, holder, -, live⟩ := right key s.next later current skips
  rw [lock, held] at holder
  cases holder
  rcases live with call | live
  · exact absurd (exclusive.symm.trans call) Bool.false_ne_true
  · exact absurd (live.symm.trans cancelled) Bool.false_ne_true

/-- Where no loop has been replaced while it held the lock, a current loop skips its turn only for
an execution that was not cancelled or a call of `run_exclusive`; and the first loop replaced so
makes the next one skip a turn for it. -/
theorem skips_right_iff (run : (scheduler settings).Run Idle .fresh s) :
    s.SkipsRight settings ∧
      ∀ l t, (scheduler settings).step l s = some t → Polled settings s l →
        (t.SkipsRight settings ↔ Idle s l t) := by
  obtain ⟨sound, fair⟩ := sound_of_run run
  refine ⟨skipsRight_of_fair sound fair, fun l t stepped polled => ?_⟩
  constructor
  · intro right
    cases l
    case schedule key interval now =>
      intro on i listed held
      cases stepped
      exact not_skipsRight_schedule sound on polled.2 listed held interval now right
    all_goals trivial
  · intro idle
    have kept := step_keeps sound stepped
    exact skipsRight_of_fair kept.1 (kept.2 fair idle)

end Steps

/-- A DERCapability poll, every day. -/
def polling : Scheduler := Scheduler.fresh.schedule "der_capability" 86400 0

/-- Its callback runs. -/
def putting : Scheduler := polling.look ⟨true, none⟩ 0 0

theorem run_putting : (scheduler ⟨true, none⟩).Run Idle .fresh putting := by
  have scheduled : (scheduler ⟨true, none⟩).Run Idle .fresh polling :=
    .step (.schedule "der_capability" 86400 0) (.refl _) rfl fun _ i listed => by cases listed
  exact .step (.look 0 0) scheduled rfl trivial

/-- The callback is over; the poll is scheduled again, every hour, and its first loop ends. Then a
call of `run_exclusive` gets the lock. -/
def rescheduled : Scheduler :=
  (((putting.callbackEnds 0).schedule "der_capability" 3600 10).unwind 0).runExclusive
    "der_capability" 3600

/-- The second loop skips a turn for that call. -/
theorem skips_right_putting :
    (rescheduled.current "der_capability" = some 1 ∧ rescheduled.Skips ⟨true, none⟩ 1 3610) ∧
      rescheduled.SkipsRight ⟨true, none⟩ ∧
      ∀ l t, (scheduler ⟨true, none⟩).step l rescheduled = some t →
        Polled ⟨true, none⟩ rescheduled l →
        (t.SkipsRight ⟨true, none⟩ ↔ Idle rescheduled l t) := by
  have again : (scheduler ⟨true, none⟩).Run Idle .fresh
      ((putting.callbackEnds 0).schedule "der_capability" 3600 10) :=
    .step (.schedule "der_capability" 3600 10) (.step (.callbackEnds 0) run_putting rfl trivial) rfl
      fun _ _ _ held => by cases held
  have run : (scheduler ⟨true, none⟩).Run Idle .fresh rescheduled :=
    .step (.runExclusive "der_capability" 3600) (.step (.unwind 0) again rfl trivial) rfl trivial
  exact ⟨⟨rfl, rfl, rfl, rfl, rfl, rfl⟩, skips_right_iff run⟩

/-- It is scheduled again while the callback runs, and skips its first turn. -/
theorem replaced_skips : ∃ s, (scheduler ⟨true, none⟩).Run Machine.Free .fresh s ∧
    s.current "der_capability" = some 1 ∧ s.Skips ⟨true, none⟩ 1 2 ∧
    ¬ s.SkipsRight ⟨true, none⟩ := by
  have ran : (scheduler ⟨true, none⟩).Run Machine.Free .fresh putting :=
    run_putting.weaken fun _ => trivial
  refine ⟨putting.schedule "der_capability" 86400 1,
    .step (.schedule "der_capability" 86400 1) ran rfl trivial, rfl, ⟨rfl, rfl, rfl, rfl, rfl⟩, ?_⟩
  exact not_skipsRight_schedule (sound_of_run run_putting).1 rfl (.inl rfl) rfl rfl 86400 1

end Py20305.Polling
