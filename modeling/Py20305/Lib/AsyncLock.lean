import Mathlib.Data.List.Basic

/-!
Locks of cooperative tasks.

A lock has a holder and the tasks that wait for it, in order. A task takes it at once if it is free
and every waiter has been cancelled, and queues otherwise; when it is free the first waiter that
has not been cancelled goes on. A cancelled waiter stays in the queue until it unwinds.
-/

namespace Py20305

structure AsyncLock (ω : Type) where
  holder : Option ω
  waiters : List ω

namespace AsyncLock

variable {ω : Type}

def free : AsyncLock ω := ⟨none, []⟩

def locked (lock : AsyncLock ω) : Bool := lock.holder.isSome

/-- Can a task take the lock at once? -/
def isOpen (lock : AsyncLock ω) (cancelled : ω → Bool) : Bool :=
  !lock.locked && lock.waiters.all cancelled

def take (lock : AsyncLock ω) (w : ω) : AsyncLock ω := { lock with holder := some w }

def enqueue (lock : AsyncLock ω) (w : ω) : AsyncLock ω := { lock with waiters := lock.waiters ++ [w] }

/-- The waiter that goes on next. -/
def next (lock : AsyncLock ω) (cancelled : ω → Bool) : Option ω :=
  if lock.locked then none else lock.waiters.find? fun w => !cancelled w

/-- It leaves the queue and takes the lock. -/
def grant [DecidableEq ω] (lock : AsyncLock ω) (w : ω) : AsyncLock ω := ⟨some w, lock.waiters.erase w⟩

def release (lock : AsyncLock ω) : AsyncLock ω := { lock with holder := none }

/-- A waiter unwinds. -/
def leave [DecidableEq ω] (lock : AsyncLock ω) (w : ω) : AsyncLock ω :=
  { lock with waiters := lock.waiters.erase w }

theorem next_eq_some {lock : AsyncLock ω} {cancelled : ω → Bool} {w : ω}
    (found : lock.next cancelled = some w) :
    lock.holder = none ∧ w ∈ lock.waiters ∧ cancelled w = false := by
  unfold next at found
  split at found
  · cases found
  · rename_i free
    refine ⟨?_, List.mem_of_find?_eq_some found, by simpa using List.find?_some found⟩
    simpa [locked] using free

theorem holder_of_isOpen {lock : AsyncLock ω} {cancelled : ω → Bool}
    (opens : lock.isOpen cancelled = true) : lock.holder = none := by
  simp only [isOpen, locked, Bool.and_eq_true, Bool.not_eq_true'] at opens
  exact Option.isSome_eq_false_iff.mp opens.1 |> Option.isNone_iff_eq_none.mp

/-- A free lock goes to whoever asks next, or to a waiter. -/
theorem isOpen_or_next {lock : AsyncLock ω} (cancelled : ω → Bool) (free : lock.holder = none) :
    lock.isOpen cancelled = true ∨ ∃ w, lock.next cancelled = some w := by
  by_cases all : lock.waiters.all cancelled = true
  · exact .inl (by simp [isOpen, locked, free, all])
  · right
    obtain ⟨w, waits, live⟩ : ∃ w ∈ lock.waiters, cancelled w = false := by
      simpa using all
    have some_ : (lock.waiters.find? fun w => !cancelled w).isSome = true :=
      List.find?_isSome.mpr ⟨w, waits, by simp [live]⟩
    obtain ⟨v, found⟩ := Option.isSome_iff_exists.mp some_
    exact ⟨v, by simp [next, locked, free, found]⟩

end AsyncLock

end Py20305
