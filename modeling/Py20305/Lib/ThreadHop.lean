import Mathlib.Logic.Function.Basic
import Mathlib.Data.List.Nodup
import Py20305.Lib.AsyncLock
import Py20305.Lib.Machine

/-!
Sections under a lock that hop to a thread.

A task waits for the lock, and under it either leaves at once or hands its work to a thread and
waits for that. A cancelled task unwinds and releases the lock: the work is dropped if no thread has
taken it up, and goes on otherwise. Unless that happens, at most one thread runs (`exclusive`).
-/

namespace Py20305.ThreadHop

inductive Phase where
  /-- It waits for the lock. -/
  | queued
  | inside
  | over
  deriving DecidableEq, Repr

/-- What has become of the work. -/
inductive Worker (ρ : Type) where
  | idle
  | pending
  | running
  | done (r : ρ)

namespace Worker

variable {ρ : Type}

def IsRunning : Worker ρ → Prop
  | .running => True
  | .idle | .pending | .done _ => False

instance (worker : Worker ρ) : Decidable worker.IsRunning :=
  match worker with
  | .running => .isTrue trivial
  | .idle | .pending | .done _ => .isFalse id

/-- A thread has it, or will. -/
def IsBusy : Worker ρ → Prop
  | .pending | .running => True
  | .idle | .done _ => False

/-- The task that waits for it is gone. -/
def dropped : Worker ρ → Worker ρ
  | .pending => .idle
  | .idle => .idle
  | .running => .running
  | .done r => .done r

end Worker

/-- A call, with the work it is for. -/
structure Task (ω ρ : Type) where
  input : ω
  phase : Phase
  cancelled : Bool
  worker : Worker ρ

/-- The lock, with the tasks made so far; those below `next` have been. -/
structure Hops (ω ρ : Type) where
  task : Nat → Task ω ρ
  next : Nat
  lock : AsyncLock Nat

namespace Hops

variable {ω ρ : Type}

def fresh (input : ω) : Hops ω ρ where
  task _ := ⟨input, .over, false, .idle⟩
  next := 0
  lock := .free

variable (s : Hops ω ρ)

def isCancelled (i : Nat) : Bool := (s.task i).cancelled

def put (i : Nat) (task : Task ω ρ) (lock : AsyncLock Nat) : Hops ω ρ :=
  { s with task := Function.update s.task i task, lock := lock }

/-- The task has the lock. -/
def enters (i : Nat) (task : Task ω ρ) (lock : AsyncLock Nat) (hops : Bool) : Hops ω ρ :=
  if hops then s.put i { task with phase := .inside, worker := .pending } lock
  else s.put i { task with phase := .over } lock.release

/-- A new task asks for the lock. -/
def call (input : ω) (hops : Bool) : Hops ω ρ :=
  let task : Task ω ρ := ⟨input, .queued, false, .idle⟩
  let made := { s with next := s.next + 1 }
  if s.lock.isOpen s.isCancelled then made.enters s.next task (s.lock.take s.next) hops
  else made.put s.next task (s.lock.enqueue s.next)

/-- The next waiter goes on. -/
def granted (hops : Bool) : Option (Hops ω ρ) :=
  (s.lock.next s.isCancelled).map fun i => s.enters i (s.task i) (s.lock.grant i) hops

def setWorker (i : Nat) (worker : Worker ρ) : Hops ω ρ :=
  s.put i { s.task i with worker := worker } s.lock

/-- A thread takes the work up. -/
def starts (i : Nat) : Option (Hops ω ρ) :=
  match (s.task i).worker with
  | .pending => some (s.setWorker i .running)
  | .idle | .running | .done _ => none

/-- A thread takes the work up and is done with it. -/
def answers (i : Nat) (r : ρ) : Option (Hops ω ρ) :=
  match (s.task i).worker with
  | .pending => some (s.setWorker i (.done r))
  | .idle | .running | .done _ => none

def finishes (i : Nat) (r : ρ) : Option (Hops ω ρ) :=
  match (s.task i).worker with
  | .running => some (s.setWorker i (.done r))
  | .idle | .pending | .done _ => none

/-- The task goes on once its work is done, and leaves. -/
def returns (i : Nat) : Option (Hops ω ρ × ρ) :=
  if (s.task i).phase = .inside ∧ (s.task i).cancelled = false then
    match (s.task i).worker with
    | .done r => some (s.put i { s.task i with phase := .over } s.lock.release, r)
    | .idle | .pending | .running => none
  else none

def cancel (i : Nat) : Option (Hops ω ρ) :=
  if (s.task i).phase = .over then none
  else some (s.put i { s.task i with cancelled := true } s.lock)

/-- A cancelled task unwinds. -/
def unwind (i : Nat) : Option (Hops ω ρ) :=
  if (s.task i).cancelled then
    match (s.task i).phase with
    | .queued => some (s.put i { s.task i with phase := .over } (s.lock.leave i))
    | .inside => some (s.put i
        { s.task i with phase := .over, worker := (s.task i).worker.dropped } s.lock.release)
    | .over => none
  else none

/-- The task holds the lock, and its thread runs. -/
def Attends (i : Nat) : Prop := (s.task i).phase = .inside ∧ (s.task i).worker.IsRunning

instance (i : Nat) : Decidable (s.Attends i) := inferInstanceAs (Decidable (_ ∧ _))

/-- At most one thread runs. -/
def Exclusive : Prop :=
  ∀ i j, (s.task i).worker.IsRunning → (s.task j).worker.IsRunning → i = j

/-- Who waits for the lock or holds it is where it should be. -/
structure Sound : Prop where
  unmade : ∀ i, s.next ≤ i → (s.task i).phase = .over ∧ (s.task i).worker = .idle
  waits : ∀ i ∈ s.lock.waiters, (s.task i).phase = .queued
  nodup : s.lock.waiters.Nodup
  holds : ∀ i, (s.task i).phase = .inside ↔ s.lock.holder = some i
  idle : ∀ i, (s.task i).phase = .queued → (s.task i).worker = .idle

/-- No thread has work of a task that is gone. -/
def Attended : Prop := ∀ i, (s.task i).worker.IsBusy → (s.task i).phase = .inside

end Hops

section Steps

variable {ω ρ : Type} {s t : Hops ω ρ} {i j : Nat} {task : Task ω ρ} {lock : AsyncLock Nat}

@[simp] theorem task_put_self : (s.put i task lock).task i = task := Function.update_self ..

theorem task_put_ne (other : j ≠ i) : (s.put i task lock).task j = s.task j :=
  Function.update_of_ne other _ _

@[simp] theorem lock_put : (s.put i task lock).lock = lock := rfl

theorem Worker.IsRunning.isBusy {worker : Worker ρ} (running : worker.IsRunning) :
    worker.IsBusy := by
  cases worker <;> first | exact running.elim | trivial

theorem sound_fresh (input : ω) : (Hops.fresh input : Hops ω ρ).Sound where
  unmade _ _ := ⟨rfl, rfl⟩
  waits _ waits := by cases waits
  nodup := .nil
  holds _ := ⟨(fun inside => by cases inside), fun held => by cases held⟩
  idle _ queued := by cases queued

theorem attended_fresh (input : ω) : (Hops.fresh input : Hops ω ρ).Attended :=
  fun _ busy => busy.elim

/-- A task moves, and the lock with it. -/
theorem Hops.Sound.put (sound : s.Sound) (made : i < s.next)
    (waits : ∀ j ∈ lock.waiters, (j = i ∧ task.phase = .queued) ∨ (j ≠ i ∧ j ∈ s.lock.waiters))
    (nodup : lock.waiters.Nodup) (own : task.phase = .inside ↔ lock.holder = some i)
    (others : ∀ j, j ≠ i → (lock.holder = some j ↔ s.lock.holder = some j))
    (idle : task.phase = .queued → task.worker = .idle) : (s.put i task lock).Sound where
  unmade j later := by
    rw [task_put_ne (Nat.ne_of_gt (Nat.lt_of_lt_of_le made later))]
    exact sound.unmade j later
  waits j listed := by
    rcases waits j listed with ⟨rfl, queued⟩ | ⟨other, before⟩
    · rwa [task_put_self]
    · rw [task_put_ne other]
      exact sound.waits j before
  nodup := nodup
  holds j := by
    by_cases same : j = i
    · subst same
      rwa [task_put_self]
    · rw [task_put_ne same]
      exact (sound.holds j).trans (others j same).symm
  idle j queued := by
    by_cases same : j = i
    · subst same
      rw [task_put_self] at queued ⊢
      exact idle queued
    · rw [task_put_ne same] at queued ⊢
      exact sound.idle j queued

theorem Hops.Attended.put (attended : s.Attended) (own : task.worker.IsBusy → task.phase = .inside) :
    (s.put i task lock).Attended := by
  intro j busy
  by_cases same : j = i
  · subst same
    rw [task_put_self] at busy ⊢
    exact own busy
  · rw [task_put_ne same] at busy ⊢
    exact attended j busy

theorem Hops.Sound.made (sound : s.Sound) (alive : (s.task i).phase ≠ .over) : i < s.next := by
  by_contra unmade
  exact alive (sound.unmade i (Nat.le_of_not_lt unmade)).1

/-- Nothing changes but what has become of the work. -/
theorem Hops.Sound.setWorker (sound : s.Sound) {worker : Worker ρ}
    (busy : (s.task i).worker.IsBusy) : (s.setWorker i worker).Sound := by
  have made : i < s.next := by
    by_contra unmade
    rw [(sound.unmade i (Nat.le_of_not_lt unmade)).2] at busy
    exact busy
  refine sound.put made (fun j listed => ?_) sound.nodup (sound.holds i) (fun _ _ => .rfl)
    fun queued => ?_
  · by_cases same : j = i
    · exact .inl ⟨same, same ▸ sound.waits j listed⟩
    · exact .inr ⟨same, listed⟩
  · rw [sound.idle i queued] at busy
    exact busy.elim

/-- A task takes the lock, and may leave at once. -/
theorem Hops.Sound.enters (sound : s.Sound) (made : i < s.next) (free : s.lock.holder = none)
    (taken : lock.holder = some i) (waiters : ∀ j ∈ lock.waiters, j ≠ i ∧ j ∈ s.lock.waiters)
    (nodup : lock.waiters.Nodup) (hops : Bool) : (s.enters i task lock hops).Sound := by
  have nobody (j : Nat) : s.lock.holder ≠ some j := by simp [free]
  unfold Hops.enters
  split
  · refine sound.put made (fun j listed => .inr (waiters j listed)) nodup
      ⟨fun _ => taken, fun _ => rfl⟩ (fun j other => ?_) fun queued => by cases queued
    simp [taken, nobody, Ne.symm other]
  · refine sound.put made (fun j listed => .inr (waiters j listed)) nodup
      ⟨(fun inside => by cases inside), fun held => by cases held⟩ (fun j _ => ?_)
      fun queued => by cases queued
    simp [AsyncLock.release, nobody]

theorem Hops.Attended.enters (attended : s.Attended) (idle : task.worker = .idle) (hops : Bool) :
    (s.enters i task lock hops).Attended := by
  unfold Hops.enters
  split
  · exact attended.put fun _ => rfl
  · exact attended.put fun busy => by
      rw [show ({ task with phase := Phase.over } : Task ω ρ).worker = .idle from idle] at busy
      exact busy.elim

theorem Hops.Sound.call (sound : s.Sound) (input : ω) (hops : Bool) : (s.call input hops).Sound := by
  have made : ({ s with next := s.next + 1 } : Hops ω ρ).Sound :=
    ⟨fun i later => sound.unmade i (Nat.le_of_succ_le later), sound.waits, sound.nodup,
      sound.holds, sound.idle⟩
  have absent (j : Nat) (listed : j ∈ s.lock.waiters) : j ≠ s.next := by
    rintro rfl
    simpa [(sound.unmade s.next (Nat.le_refl _)).1] using sound.waits _ listed
  unfold Hops.call
  split
  · rename_i opens
    exact made.enters (Nat.lt_succ_self _) (AsyncLock.holder_of_isOpen opens)
      (rfl : (s.lock.take s.next).holder = some s.next)
      (fun j listed => ⟨absent j listed, listed⟩) sound.nodup hops
  · refine made.put (Nat.lt_succ_self _) (fun j listed => ?_) ?_ ?_ (fun _ _ => .rfl) fun _ => rfl
    · rcases List.mem_append.mp listed with before | new
      · exact .inr ⟨absent j before, before⟩
      · exact .inl ⟨List.mem_singleton.mp new, rfl⟩
    · refine List.Nodup.append sound.nodup (List.nodup_singleton _) fun j listed new => ?_
      exact absent j listed (List.mem_singleton.mp new)
    · refine ⟨(fun inside => by cases inside), fun held => ?_⟩
      simpa [(sound.unmade s.next (Nat.le_refl _)).1] using (sound.holds s.next).mpr held

theorem Hops.Attended.call (attended : s.Attended) (input : ω) (hops : Bool) :
    (s.call input hops).Attended := by
  have made : ({ s with next := s.next + 1 } : Hops ω ρ).Attended := attended
  unfold Hops.call
  split
  · exact made.enters rfl hops
  · exact made.put fun busy => busy.elim

theorem Hops.Sound.granted (sound : s.Sound) {hops : Bool}
    (stepped : s.granted hops = some t) : t.Sound := by
  obtain ⟨i, found, rfl⟩ := Option.map_eq_some_iff.mp stepped
  obtain ⟨free, listed, -⟩ := AsyncLock.next_eq_some found
  have queued := sound.waits i listed
  refine sound.enters (sound.made (by simp [queued])) free rfl (fun j later => ?_)
    (sound.nodup.erase i) _
  exact (List.Nodup.mem_erase_iff sound.nodup).mp later

theorem Hops.Attended.granted (attended : s.Attended) (sound : s.Sound) {hops : Bool}
    (stepped : s.granted hops = some t) : t.Attended := by
  obtain ⟨i, found, rfl⟩ := Option.map_eq_some_iff.mp stepped
  obtain ⟨-, listed, -⟩ := AsyncLock.next_eq_some found
  exact attended.enters (sound.idle i (sound.waits i listed)) _

theorem Hops.Sound.starts (sound : s.Sound) (stepped : s.starts i = some t) : t.Sound := by
  unfold Hops.starts at stepped
  split at stepped
  case h_1 pending => cases stepped; exact sound.setWorker (by simp [pending, Worker.IsBusy])
  all_goals cases stepped

theorem Hops.Attended.starts (attended : s.Attended) (stepped : s.starts i = some t) :
    t.Attended := by
  unfold Hops.starts at stepped
  split at stepped
  case h_1 pending =>
    cases stepped
    exact attended.put fun _ => attended i (by simp [pending, Worker.IsBusy])
  all_goals cases stepped

theorem Hops.Sound.answers {r : ρ} (sound : s.Sound) (stepped : s.answers i r = some t) :
    t.Sound := by
  unfold Hops.answers at stepped
  split at stepped
  case h_1 pending => cases stepped; exact sound.setWorker (by simp [pending, Worker.IsBusy])
  all_goals cases stepped

theorem Hops.Attended.answers {r : ρ} (attended : s.Attended) (stepped : s.answers i r = some t) :
    t.Attended := by
  unfold Hops.answers at stepped
  split at stepped
  case h_1 => cases stepped; exact attended.put fun busy => busy.elim
  all_goals cases stepped

theorem Hops.Sound.finishes {r : ρ} (sound : s.Sound) (stepped : s.finishes i r = some t) :
    t.Sound := by
  unfold Hops.finishes at stepped
  split at stepped
  case h_1 running => cases stepped; exact sound.setWorker (by simp [running, Worker.IsBusy])
  all_goals cases stepped

theorem Hops.Attended.finishes {r : ρ} (attended : s.Attended) (stepped : s.finishes i r = some t) :
    t.Attended := by
  unfold Hops.finishes at stepped
  split at stepped
  case h_1 => cases stepped; exact attended.put fun busy => busy.elim
  all_goals cases stepped

/-- Who holds the lock leaves. -/
theorem Hops.Sound.leaves (sound : s.Sound) (inside : (s.task i).phase = .inside)
    (done : task.phase = .over) : (s.put i task s.lock.release).Sound := by
  have held := (sound.holds i).mp inside
  refine sound.put (sound.made (by simp [inside])) (fun j listed => ?_) sound.nodup
    ⟨fun again => by simp [done] at again, fun again => by cases again⟩ (fun j other => ?_)
    fun queued => by simp [done] at queued
  · refine .inr ⟨?_, listed⟩
    rintro rfl
    simpa [inside] using sound.waits _ listed
  · simp [AsyncLock.release, held, Ne.symm other]

theorem Hops.returns_eq_some {r : ρ} (stepped : s.returns i = some (t, r)) :
    ((s.task i).phase = .inside ∧ (s.task i).cancelled = false ∧ (s.task i).worker = .done r) ∧
      t = s.put i { s.task i with phase := .over } s.lock.release := by
  unfold Hops.returns at stepped
  split at stepped
  · rename_i inside
    split at stepped
    case h_1 r' worked =>
      cases stepped
      exact ⟨⟨inside.1, inside.2, worked⟩, rfl⟩
    all_goals cases stepped
  · cases stepped

theorem Hops.Sound.returns {r : ρ} (sound : s.Sound) (stepped : s.returns i = some (t, r)) :
    t.Sound := by
  obtain ⟨⟨inside, -, -⟩, rfl⟩ := Hops.returns_eq_some stepped
  exact sound.leaves inside rfl

theorem Hops.Attended.returns {r : ρ} (attended : s.Attended)
    (stepped : s.returns i = some (t, r)) : t.Attended := by
  obtain ⟨⟨-, -, worked⟩, rfl⟩ := Hops.returns_eq_some stepped
  exact attended.put fun busy => by simp [worked, Worker.IsBusy] at busy

theorem Hops.Sound.cancel (sound : s.Sound) (stepped : s.cancel i = some t) : t.Sound := by
  unfold Hops.cancel at stepped
  split at stepped
  · cases stepped
  · rename_i alive
    cases stepped
    refine sound.put (sound.made alive) (fun j listed => ?_) sound.nodup (sound.holds i)
      (fun _ _ => .rfl) (sound.idle i)
    by_cases same : j = i
    · exact .inl ⟨same, same ▸ sound.waits j listed⟩
    · exact .inr ⟨same, listed⟩

theorem Hops.Attended.cancel (attended : s.Attended) (stepped : s.cancel i = some t) :
    t.Attended := by
  unfold Hops.cancel at stepped
  split at stepped
  · cases stepped
  · cases stepped
    exact attended.put (attended i)

theorem Hops.Sound.unwind (sound : s.Sound) (stepped : s.unwind i = some t) : t.Sound := by
  unfold Hops.unwind at stepped
  split at stepped
  · split at stepped
    case h_1 queued =>
      cases stepped
      have out (j : Nat) : j ∈ (s.lock.leave i).waiters ↔ j ≠ i ∧ j ∈ s.lock.waiters :=
        List.Nodup.mem_erase_iff sound.nodup
      refine sound.put (sound.made (by simp [queued])) (fun j listed => .inr ((out j).mp listed))
        (sound.nodup.erase i) ⟨(fun inside => by cases inside), fun held => ?_⟩ (fun _ _ => .rfl)
        fun again => by cases again
      have inside := (sound.holds i).mpr held
      simp [queued] at inside
    case h_2 inside =>
      cases stepped
      exact sound.leaves inside rfl
    case h_3 => cases stepped
  · cases stepped

/-- Unless its thread runs on, a task that unwinds leaves no work behind. -/
theorem Hops.Attended.unwind (attended : s.Attended) (stepped : s.unwind i = some t)
    (minds : ¬s.Attends i) : t.Attended := by
  unfold Hops.unwind at stepped
  split at stepped
  · split at stepped
    case h_1 queued =>
      cases stepped
      exact attended.put fun busy => by simpa [queued] using attended i busy
    case h_2 inside =>
      cases stepped
      refine attended.put fun busy => ?_
      cases worker : (s.task i).worker with
      | running => exact absurd ⟨inside, by simp [worker, Worker.IsRunning]⟩ minds
      | idle => simp [worker, Worker.dropped, Worker.IsBusy] at busy
      | pending => simp [worker, Worker.dropped, Worker.IsBusy] at busy
      | done r => simp [worker, Worker.dropped, Worker.IsBusy] at busy
    case h_3 => cases stepped
  · cases stepped

theorem Hops.Attended.exclusive (attended : s.Attended) (sound : s.Sound) : s.Exclusive := by
  intro i j first second
  have holds := (sound.holds i).mp (attended i first.isBusy)
  exact Option.some.inj (holds.symm.trans ((sound.holds j).mp (attended j second.isBusy)))

/-! ### What becomes of the work -/

/-- Work is busy after a step if it was before or if `busy` holds, and a result is an old one or
meets `result`. -/
def Hops.Follows (s t : Hops ω ρ) (busy : Prop) (result : ρ → Prop) : Prop :=
  ∀ j, ((t.task j).worker.IsBusy → (s.task j).worker.IsBusy ∨ busy) ∧
    ∀ r, (t.task j).worker = .done r → (s.task j).worker = .done r ∨ result r

variable {busy : Prop} {result : ρ → Prop}

theorem Hops.Follows.mono {busy' : Prop} {result' : ρ → Prop} (follows : s.Follows t busy result)
    (works : busy → busy') (results : ∀ r, result r → result' r) : s.Follows t busy' result' :=
  fun j => ⟨fun now => ((follows j).1 now).imp_right works,
    fun r done => ((follows j).2 r done).imp_right (results r)⟩

theorem Hops.Follows.quiet (follows : s.Follows t False fun _ => False) :
    s.Follows t busy result :=
  follows.mono False.elim fun _ => False.elim

theorem Hops.Follows.put (own : task.worker.IsBusy → (s.task i).worker.IsBusy ∨ busy)
    (done : ∀ r, task.worker = .done r → (s.task i).worker = .done r ∨ result r) :
    s.Follows (s.put i task lock) busy result := by
  intro j
  by_cases same : j = i
  · subst same
    rw [task_put_self]
    exact ⟨own, done⟩
  · rw [task_put_ne same]
    exact ⟨.inl, fun r => .inl⟩

theorem Hops.Follows.enters (idle : task.worker = .idle) (hops : Bool) :
    s.Follows (s.enters i task lock hops) (hops = true) fun _ => False := by
  unfold Hops.enters
  split
  · rename_i asks
    exact .put (fun _ => .inr asks) fun r done => by cases done
  · exact .put (fun busy => by simp [idle, Worker.IsBusy] at busy) fun r done => by
      simp [idle] at done

theorem Hops.Follows.call (s : Hops ω ρ) (input : ω) (hops : Bool) :
    s.Follows (s.call input hops) (hops = true) fun _ => False := by
  have made {t : Hops ω ρ} (follows : ({ s with next := s.next + 1 } : Hops ω ρ).Follows t
      (hops = true) fun _ => False) : s.Follows t (hops = true) fun _ => False := follows
  unfold Hops.call
  split
  · exact made (.enters rfl hops)
  · exact made (.put (fun busy => busy.elim) fun r done => by cases done)

theorem Hops.Follows.granted (sound : s.Sound) {hops : Bool} (stepped : s.granted hops = some t) :
    s.Follows t (hops = true) fun _ => False := by
  obtain ⟨i, found, rfl⟩ := Option.map_eq_some_iff.mp stepped
  exact .enters (sound.idle i (sound.waits i (AsyncLock.next_eq_some found).2.1)) hops

theorem Hops.Follows.starts (stepped : s.starts i = some t) :
    s.Follows t False fun _ => False := by
  unfold Hops.starts at stepped
  split at stepped
  case h_1 pending =>
    cases stepped
    exact .put (fun _ => .inl (by simp [pending, Worker.IsBusy])) fun r done => by cases done
  all_goals cases stepped

theorem Hops.Follows.answers {r : ρ} (stepped : s.answers i r = some t) :
    s.Follows t False (· = r) := by
  unfold Hops.answers at stepped
  split at stepped
  case h_1 =>
    cases stepped
    exact .put (fun busy => busy.elim) fun r' done => .inr (Worker.done.inj done).symm
  all_goals cases stepped

theorem Hops.Follows.finishes {r : ρ} (stepped : s.finishes i r = some t) :
    s.Follows t False (· = r) := by
  unfold Hops.finishes at stepped
  split at stepped
  case h_1 =>
    cases stepped
    exact .put (fun busy => busy.elim) fun r' done => .inr (Worker.done.inj done).symm
  all_goals cases stepped

theorem Hops.Follows.returns {r : ρ} (stepped : s.returns i = some (t, r)) :
    s.Follows t False fun _ => False := by
  obtain ⟨-, rfl⟩ := Hops.returns_eq_some stepped
  exact .put .inl fun r => .inl

theorem Hops.Follows.cancel (stepped : s.cancel i = some t) : s.Follows t False fun _ => False := by
  unfold Hops.cancel at stepped
  split at stepped
  · cases stepped
  · cases stepped
    exact .put .inl fun r => .inl

theorem Hops.Follows.unwind (stepped : s.unwind i = some t) : s.Follows t False fun _ => False := by
  unfold Hops.unwind at stepped
  split at stepped
  · split at stepped
    case h_1 => cases stepped; exact .put .inl fun r => .inl
    case h_2 =>
      cases stepped
      refine .put (fun busy => .inl ?_) fun r done => .inl ?_
      · cases worker : (s.task i).worker <;> simp_all [Worker.dropped, Worker.IsBusy]
      · cases worker : (s.task i).worker <;> simp_all [Worker.dropped]
    case h_3 => cases stepped
  · cases stepped

/-- When a thread is done there is work for no other. -/
theorem Hops.Sound.quiet_of_finishes {r : ρ} (sound : s.Sound) (attended : s.Attended)
    (stepped : s.finishes i r = some t) (j : Nat) : ¬(t.task j).worker.IsBusy := by
  intro busy
  unfold Hops.finishes at stepped
  split at stepped
  case h_1 running =>
    cases stepped
    by_cases same : j = i
    · subst same
      simp [Hops.setWorker, Worker.IsBusy] at busy
    · rw [Hops.setWorker, task_put_ne same] at busy
      have holds := (sound.holds j).mp (attended j busy)
      have own := (sound.holds i).mp (attended i (by simp [running, Worker.IsBusy]))
      exact same (Option.some.inj (holds.symm.trans own))
  all_goals cases stepped

/-! ### A thread that runs on -/

/-- The task unwinds while its thread runs: the lock is free, and the thread runs on. -/
theorem Hops.Attends.unwind (attends : s.Attends i) (stepped : s.unwind i = some t) :
    t.lock.holder = none ∧ (t.task i).worker.IsRunning ∧ (t.task i).phase = .over := by
  unfold Hops.unwind at stepped
  split at stepped
  · split at stepped
    case h_1 queued => simpa [queued] using attends.1
    case h_2 inside =>
      cases stepped
      have running := attends.2
      cases worker : (s.task i).worker with
      | running => simp [Worker.dropped, AsyncLock.release, Worker.IsRunning]
      | idle => simp [worker, Worker.IsRunning] at running
      | pending => simp [worker, Worker.IsRunning] at running
      | done r => simp [worker, Worker.IsRunning] at running
    case h_3 => cases stepped
  · cases stepped

@[simp] theorem Hops.starts_entered (s : Hops ω ρ) (i : Nat) (task : Task ω ρ)
    (lock : AsyncLock Nat) : (s.enters i task lock true).starts i =
      some ((s.enters i task lock true).setWorker i .running) := by
  simp [Hops.starts, Hops.enters]

/-- Another task takes the lock, and a thread its work: two threads run. -/
theorem Hops.not_exclusive_entered (other : j ≠ i) (running : (s.task j).worker.IsRunning) :
    ¬((s.enters i task lock true).setWorker i .running).Exclusive := by
  intro exclusive
  refine other (exclusive j i ?_ ?_)
  · rw [Hops.setWorker, task_put_ne other]
    simpa [Hops.enters, task_put_ne other] using running
  · simp [Hops.setWorker, Worker.IsRunning]

/-- A thread runs on, and the lock is free: the next call or the next waiter runs beside it. -/
theorem Hops.Sound.second_runs (sound : s.Sound) (free : s.lock.holder = none)
    (running : (s.task i).worker.IsRunning) (input : ω) :
    (s.lock.isOpen s.isCancelled = true ∧
        ∃ v, (s.call input true).starts s.next = some v ∧ ¬v.Exclusive) ∨
      ∃ j t v, s.granted true = some t ∧ t.starts j = some v ∧ ¬v.Exclusive := by
  rcases AsyncLock.isOpen_or_next s.isCancelled free with opens | ⟨j, found⟩
  · refine .inl ⟨opens, ?_⟩
    have other : i ≠ s.next := by
      rintro rfl
      rw [(sound.unmade s.next (Nat.le_refl _)).2] at running
      exact running
    have called : s.call input true = ({ s with next := s.next + 1 } : Hops ω ρ).enters s.next
        ⟨input, .queued, false, .idle⟩ (s.lock.take s.next) true := if_pos opens
    have beside : ¬(({ s with next := s.next + 1 } : Hops ω ρ).enters s.next
        ⟨input, .queued, false, .idle⟩ (s.lock.take s.next) true |>.setWorker s.next
          .running).Exclusive := Hops.not_exclusive_entered other running
    exact ⟨_, by rw [called, Hops.starts_entered], beside⟩
  · right
    have other : i ≠ j := by
      rintro rfl
      rw [sound.idle i (sound.waits i (AsyncLock.next_eq_some found).2.1)] at running
      exact running
    exact ⟨j, _, _, by rw [Hops.granted, found, Option.map_some], Hops.starts_entered ..,
      Hops.not_exclusive_entered other running⟩

end Steps

end Py20305.ThreadHop
