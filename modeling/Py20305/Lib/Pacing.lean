import Mathlib.Algebra.Order.Group.Defs
import Mathlib.Data.List.Basic
import Mathlib.Order.Basic

/-!
How often something is done.

A limit that counts in windows opens one when a request comes in after the last has ended, and
admits a number of requests in each. What it admits, taken over any stretch of time as long as a
window, is at most twice that (`Windowed.each`): the end of one window and the start of the next.
-/

namespace Py20305

section Counts

variable {T : Type} [LinearOrder T] {start now first last : T} {times : List T}

/-- How many of the times are from `first` on and before `last`. -/
def timesIn (first last : T) (times : List T) : Nat :=
  times.countP fun time => first ≤ time ∧ time < last

/-- How many are from `first` on. -/
def timesFrom (first : T) (times : List T) : Nat := times.countP fun time => first ≤ time

theorem timesIn_cons (first last now : T) (times : List T) : timesIn first last (now :: times) =
    timesIn first last times + if first ≤ now ∧ now < last then 1 else 0 := by
  simp [timesIn, List.countP_cons]

theorem timesFrom_cons (first now : T) (times : List T) : timesFrom first (now :: times) =
    timesFrom first times + if first ≤ now then 1 else 0 := by
  simp [timesFrom, List.countP_cons]

/-- A stretch that ends after a time falls into what is before it and what is from it on. -/
theorem timesIn_le (start : T) :
    timesIn first last times ≤ timesIn first start times + timesFrom start times := by
  induction times with
  | nil => simp [timesIn, timesFrom]
  | cons now rest ih =>
      rw [timesIn_cons, timesIn_cons, timesFrom_cons]
      rcases lt_or_ge now start with before | after
      · by_cases inside : first ≤ now ∧ now < last
        · rw [if_pos inside, if_pos ⟨inside.1, before⟩]
          omega
        · rw [if_neg inside]
          omega
      · rw [if_pos after]
        split <;> split <;> omega

/-- A stretch that starts with a window has no more than the window has. -/
theorem timesIn_le_timesFrom (later : start ≤ first) :
    timesIn first last times ≤ timesFrom start times := by
  refine List.countP_mono_left fun time _ inside => ?_
  exact decide_eq_true (later.trans (of_decide_eq_true inside).1)

end Counts

section Windows

variable {T : Type} [AddCommGroup T] [LinearOrder T] {window start now : T} {burst count : Nat}
variable {times : List T}

/-- What the times are to a window that was opened at `start` and has admitted `count` of them. -/
structure Windowed (window : T) (burst : Nat) (start : T) (count : Nat) (times : List T) :
    Prop where
  full : count ≤ burst
  counted : timesFrom start times ≤ count
  inside : ∀ time ∈ times, time < start + window
  before : ∀ first, start < first + window → timesIn first start times ≤ burst
  each : ∀ first, timesIn first (first + window) times ≤ 2 * burst

/-- The first window. -/
theorem windowed_nil (window now : T) (burst : Nat) : Windowed window burst now 0 [] where
  full := Nat.zero_le burst
  counted := Nat.le_refl 0
  inside := by simp
  before _ _ := Nat.zero_le burst
  each _ := Nat.zero_le _

/-- One more is admitted in the window. -/
theorem Windowed.admits (windowed : Windowed window burst start count times) (room : count < burst)
    (opened : start ≤ now) (open_ : now < start + window) :
    Windowed window burst start (count + 1) (now :: times) where
  full := room
  counted := by
    rw [timesFrom_cons, if_pos opened]
    exact Nat.add_le_add_right windowed.counted 1
  inside time listed := by
    rcases List.mem_cons.mp listed with rfl | old
    · exact open_
    · exact windowed.inside time old
  before first near := by
    rw [timesIn_cons, if_neg fun both => absurd both.2 (not_lt.mpr opened)]
    exact windowed.before first near
  each first := by
    rw [timesIn_cons]
    split
    · rename_i inside
      have near : start < first + window := opened.trans_lt inside.2
      have split : timesIn first (first + window) times ≤
          timesIn first start times + timesFrom start times := timesIn_le start
      have old := windowed.before first near
      have new := windowed.counted
      omega
    · exact windowed.each first

variable [IsOrderedAddMonoid T]

/-- A window is opened when the last has ended. -/
theorem Windowed.opens (windowed : Windowed window burst start count times)
    (ended : start + window ≤ now) (positive : 0 < window) : Windowed window burst now 0 times where
  full := Nat.zero_le burst
  counted := by
    refine Nat.le_of_eq (List.countP_eq_zero.mpr fun time listed later => ?_)
    exact absurd (of_decide_eq_true later)
      (not_le.mpr ((windowed.inside time listed).trans_le ended))
  inside time listed :=
    ((windowed.inside time listed).trans_le ended).trans (lt_add_of_pos_right now positive)
  before first near := by
    have later : start ≤ first := le_of_add_le_add_right (ended.trans near.le)
    exact (timesIn_le_timesFrom later).trans (windowed.counted.trans windowed.full)
  each := windowed.each

end Windows

end Py20305
