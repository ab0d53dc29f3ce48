import Mathlib.Data.List.Nodup
import Mathlib.Logic.Function.Basic
import Py20305.Lib.AsyncLock

/-!
Tasks that take turns under a lock.

Each task is at a place: it waits for the lock, holds it, or is elsewhere. `TakeTurns` says that the
lock agrees with the places. `Owns` leaves open where the holder is, for a step that moves it.
-/

namespace Py20305

/-- Where a task is, as a lock sees it. -/
inductive Place where
  | elsewhere
  | waiting
  | holding
  deriving DecidableEq, Repr

variable {ω : Type}

/-- The lock agrees with the places of the tasks. -/
structure TakeTurns (place : ω → Place) (lock : AsyncLock ω) : Prop where
  queue : ∀ i, i ∈ lock.waiters ↔ place i = .waiting
  once : lock.waiters.Nodup
  holder : ∀ i, lock.holder = some i ↔ place i = .holding

/-- Task `i` holds the lock, wherever it is. -/
structure Owns (place : ω → Place) (lock : AsyncLock ω) (i : ω) : Prop where
  holder : lock.holder = some i
  queue : ∀ j, j ∈ lock.waiters ↔ j ≠ i ∧ place j = .waiting
  once : lock.waiters.Nodup
  others : ∀ j, j ≠ i → place j ≠ .holding

namespace TakeTurns

variable {place : ω → Place} {lock : AsyncLock ω} {i : ω}

theorem none_holds (turns : TakeTurns place lock) (free : lock.holder = none) (j : ω) :
    place j ≠ .holding := by
  intro holds
  have held := (turns.holder j).mpr holds
  rw [free] at held
  cases held

theorem owns (turns : TakeTurns place lock) (holds : place i = .holding) : Owns place lock i where
  holder := (turns.holder i).mpr holds
  queue j := by
    rw [turns.queue]
    refine ⟨fun waits => ⟨?_, waits⟩, And.right⟩
    rintro rfl
    rw [holds] at waits
    cases waits
  once := turns.once
  others j other also := by
    have same := (turns.holder j).mpr also
    rw [(turns.holder i).mpr holds] at same
    exact other (Option.some.inj same).symm

/-- A task from elsewhere takes the free lock. -/
theorem take (turns : TakeTurns place lock) (apart : place i = .elsewhere)
    (free : lock.holder = none) : Owns place (lock.take i) i where
  holder := rfl
  queue j := by
    rw [AsyncLock.take, turns.queue]
    refine ⟨fun waits => ⟨?_, waits⟩, And.right⟩
    rintro rfl
    rw [apart] at waits
    cases waits
  once := turns.once
  others j _ := turns.none_holds free j

variable [DecidableEq ω]

/-- A waiter is given the free lock. -/
theorem grant (turns : TakeTurns place lock) (free : lock.holder = none) :
    Owns place (lock.grant i) i where
  holder := rfl
  queue j := by rw [AsyncLock.grant, turns.once.mem_erase_iff, turns.queue]
  once := turns.once.erase i
  others j _ := turns.none_holds free j

/-- A task from elsewhere waits for the lock. -/
theorem enqueue (turns : TakeTurns place lock) (apart : place i = .elsewhere) :
    TakeTurns (Function.update place i .waiting) (lock.enqueue i) where
  queue j := by
    rw [AsyncLock.enqueue, List.mem_append, turns.queue, List.mem_singleton]
    by_cases same : j = i
    · simp [same]
    · simp [same]
  once := by
    refine List.nodup_append.mpr ⟨turns.once, List.nodup_singleton i, fun j waits k last => ?_⟩
    rw [List.mem_singleton.mp last]
    rintro rfl
    have waiting := (turns.queue j).mp waits
    rw [apart] at waiting
    cases waiting
  holder j := by
    change lock.holder = some j ↔ _
    rw [turns.holder]
    by_cases same : j = i
    · subst same
      simp [apart]
    · rw [Function.update_of_ne same]

/-- A waiter leaves the queue. -/
theorem leave (turns : TakeTurns place lock) (waits : place i = .waiting) :
    TakeTurns (Function.update place i .elsewhere) (lock.leave i) where
  queue j := by
    rw [AsyncLock.leave, turns.once.mem_erase_iff, turns.queue]
    by_cases same : j = i
    · simp [same]
    · simp [same]
  once := turns.once.erase i
  holder j := by
    change lock.holder = some j ↔ _
    rw [turns.holder]
    by_cases same : j = i
    · subst same
      simp [waits]
    · rw [Function.update_of_ne same]

end TakeTurns

namespace Owns

variable [DecidableEq ω] {place : ω → Place} {lock : AsyncLock ω} {i : ω}

/-- The holder stays in its turn. -/
theorem holds (owns : Owns place lock i) : TakeTurns (Function.update place i .holding) lock where
  queue j := by
    rw [owns.queue]
    by_cases same : j = i
    · simp [same]
    · simp [same]
  once := owns.once
  holder j := by
    rw [owns.holder]
    by_cases same : j = i
    · simp [same]
    · rw [Function.update_of_ne same]
      refine ⟨fun also => absurd (Option.some.inj also).symm same, fun also => ?_⟩
      exact absurd also (owns.others j same)

/-- The holder gives the lock back. -/
theorem release (owns : Owns place lock i) :
    TakeTurns (Function.update place i .elsewhere) lock.release where
  queue j := by
    rw [AsyncLock.release, owns.queue]
    by_cases same : j = i
    · simp [same]
    · simp [same]
  once := owns.once
  holder j := by
    change none = some j ↔ _
    by_cases same : j = i
    · simp [same]
    · rw [Function.update_of_ne same]
      refine ⟨fun also => (by cases also), fun also => ?_⟩
      exact absurd also (owns.others j same)

end Owns

end Py20305
