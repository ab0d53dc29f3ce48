import Mathlib.Algebra.Order.Floor.Ring
import Mathlib.Data.Rat.Floor
import Mathlib.Tactic.Linarith

/-!
Time zones: an offset from UTC that changes at instants.

Days are counted from 1970-01-01. A local time that the clock shows twice is told apart by its
`fold`. One that it skips is read with the offset before the change, or with the one after it where
`fold` is set.
-/

namespace Py20305

/-- The seconds of a day. -/
def daySeconds : ℚ := 86400

/-- An offset, and the changes of it in order: when, and to what. -/
structure Zone where
  offset : ℚ
  changes : List (ℚ × ℚ)

namespace Zone

/-- The offset after the changes that have come. -/
def offsetFrom (came : ℚ → ℚ × ℚ → Bool) : ℚ → List (ℚ × ℚ) → ℚ
  | before, [] => before
  | before, change :: rest =>
      if came before change then offsetFrom came change.2 rest else before

/-- Does the last change that has come by `t` show the local time of `t` again? -/
def foldFrom (t : ℚ) : Bool → ℚ → List (ℚ × ℚ) → Bool
  | fold, _, [] => fold
  | fold, before, change :: rest =>
      if change.1 ≤ t then foldFrom t (t - change.1 < before - change.2) change.2 rest else fold

variable (z : Zone)

def offsetAt (t : ℚ) : ℚ := offsetFrom (fun _ change => change.1 ≤ t) z.offset z.changes

/-- `datetime.fromtimestamp(t, tz).fold`. -/
def foldAt (t : ℚ) : Bool := foldFrom t false z.offset z.changes

/-- `datetime.fromtimestamp(t, tz)`, in seconds. -/
def localAt (t : ℚ) : ℚ := t + z.offsetAt t

/-- `datetime.fromtimestamp(t, tz).date()`. -/
def dateAt (t : ℚ) : ℤ := ⌊z.localAt t / daySeconds⌋

/-- `datetime.fromtimestamp(t, tz).time()`. -/
def timeAt (t : ℚ) : ℚ := z.localAt t - z.dateAt t * daySeconds

/-- `utcoffset` of a local time. -/
def utcoffset (wall : ℚ) (fold : Bool) : ℚ :=
  offsetFrom (fun before change =>
    change.1 + (if fold then min before change.2 else max before change.2) ≤ wall)
    z.offset z.changes

/-- The local time of a day, in seconds. -/
def wall (day : ℤ) (time : ℚ) : ℚ := day * daySeconds + time

/-- `datetime.combine(day, time, tz).timestamp()`. -/
def instant (day : ℤ) (time : ℚ) (fold : Bool) : ℚ :=
  wall day time - z.utcoffset (wall day time) fold

/-- The first instant of a day. -/
def midnight (day : ℤ) : ℚ := z.instant day 0 false

/-- The local date never goes back. -/
def DatesAdvance : Prop := ∀ t u, t ≤ u → z.dateAt t ≤ z.dateAt u

variable {z} {t u : ℚ}

theorem DatesAdvance.lt (advance : z.DatesAdvance) (earlier : z.dateAt t < z.dateAt u) : t < u :=
  lt_of_not_ge fun later => absurd (advance u t later) (not_le_of_gt earlier)

theorem timeAt_sub_timeAt (same : z.offsetAt t = z.offsetAt u) :
    z.timeAt t - z.timeAt u = t - u - (z.dateAt t - z.dateAt u : ℤ) * daySeconds := by
  simp only [timeAt, localAt, same, Int.cast_sub]
  ring

theorem instant_sub_instant {day : ℤ} {time time' : ℚ} {fold fold' : Bool}
    (same : z.utcoffset (wall day time) fold = z.utcoffset (wall day time') fold') :
    z.instant day time fold - z.instant day time' fold' = time - time' := by
  rw [instant, instant, same, wall, wall]
  ring

end Zone

end Py20305
