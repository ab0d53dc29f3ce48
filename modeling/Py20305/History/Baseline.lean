import Mathlib.Data.Rat.Floor
import Py20305.History.Energy
import Py20305.History.Query
import Py20305.History.Windows
import Py20305.Lib.Zones

/-!
Baselines (`history/intervals.py`): the power of a window against that at the same local times on
earlier days.

A day is compared where, as a local day, it overlaps no excluded window. The intervals used on it
are those of the grid that hold the local times of the slots, so the clock changes of the zone and
a grid that does not divide the local day decide where they lie (`baseline_of_earlier_days`).

Dates are days since 1970-01-01, and none is out of range. Left out: their text.
-/

namespace Py20305.Intervals

/-- `MAX_BASELINE_SECONDS`. -/
def maxBaselineSeconds : ℚ := 86400

inductive BaselineError where
  | notFinite
  | endNotAfterStart
  | windowTooLong
  | tooFewDays
  deriving DecidableEq, Repr

def BaselineError.message : BaselineError → String
  | notFinite => "start and end must be finite"
  | endNotAfterStart => "end must be after start"
  | windowTooLong => "the window may be at most 86400 seconds"
  | tooFewDays => "days and lookback_days must be at least 1"

/-- The arguments of `baseline`. A time that is not finite is `none`. -/
structure BaselineArgs where
  start : Option ℚ
  «end» : Option ℚ
  lfdi : Option String := none
  days : ℤ := 10
  lookbackDays : ℤ := 45
  weekdaysOnly : Bool := true
  excluded : List (ℚ × ℚ) := []
  tz : Zone := ⟨0, []⟩
  minCoverage : ℚ := 1 / 2

/-! ### Measured slots -/

/-- `_Measured`. -/
structure Measured where
  rows : Dict Key Presented
  devices : List String
  minSeconds : ℚ

namespace Measured

variable (m : Measured)

/-- The average power of one device in one slot, if it was measured for long enough. -/
def power (slot : ℚ) (device : String) : Option ℚ :=
  (m.rows.get? (device, slot)).bind fun row =>
    row.wAvg.bind fun w => if row.coveredSeconds < m.minSeconds then none else some w

/-- `_Measured.slot`. -/
def slot (slot : ℚ) : Option ℚ := (m.devices.mapM (m.power slot)).map List.sum

/-- `_Measured.day`. -/
def day (slots : List ℚ) : Option (List ℚ) := slots.mapM m.slot

end Measured

/-! ### Comparison days -/

section Days

variable (s : Settings) (tz : Zone)

/-- The instant at which the local time of `slot` is on `day`. -/
def sameInstant (slot : ℚ) (day : ℤ) : ℚ := tz.instant day (tz.timeAt slot) (tz.foldAt slot)

/-- `_same_local_time`. -/
def sameLocalTime (slot : ℚ) (day : ℤ) : ℚ := s.floor (sameInstant tz slot day)

/-- `date.weekday`, from 0 on Monday: 1970-01-01 was a Thursday. -/
def weekday (day : ℤ) : ℤ := (day + 3) % 7

/-- The loop of `_comparison_days`. -/
def compareBack (args : BaselineArgs) (slots : List ℚ) (measured : Measured) (firstDay : ℤ) :
    List ℕ → List (ℤ × List ℚ) → List (ℤ × List ℚ)
  | [], found => found
  | back :: rest, found =>
      if args.days ≤ found.length ∨ measured.devices = [] then found
      else
        let day := firstDay - back
        if args.weekdaysOnly ∧ 5 ≤ weekday day then
          compareBack args slots measured firstDay rest found
        else if EventHistory.excludes args.excluded (args.tz.midnight day)
            (args.tz.midnight (day + 1)) then
          compareBack args slots measured firstDay rest found
        else match measured.day (slots.map fun slot => sameLocalTime s args.tz slot day) with
          | none => compareBack args slots measured firstDay rest found
          | some power => compareBack args slots measured firstDay rest (found ++ [(day, power)])

/-- `range(1, lookback_days + 1)`. -/
def backs (lookbackDays : ℤ) : List ℕ := List.range' 1 lookbackDays.toNat

/-- `_comparison_days`: the days used, each with its power per slot. -/
def comparisonDays (args : BaselineArgs) (slots : List ℚ) (measured : Measured) (first : ℚ) :
    List (ℤ × List ℚ) :=
  compareBack s args slots measured (args.tz.dateAt first) (backs args.lookbackDays) []

end Days

/-! ### Baselines -/

structure BaselineSlot where
  start : ℚ
  baselineW : Option ℚ
  actualW : Option ℚ
  deltaW : Option ℚ
  deriving DecidableEq

/-- What `baseline` returns. -/
structure Baseline where
  lfdi : Option String
  devices : List String
  start : ℚ
  «end» : ℚ
  intervalSeconds : ℕ
  daysRequested : ℤ
  daysUsed : List ℤ
  slots : List BaselineSlot
  baselineWh : Option ℚ
  actualWh : Option ℚ
  deltaWh : Option ℚ
  deriving DecidableEq

/-- The average of the comparison days in one slot. -/
def averageAt (samples : List (List ℚ)) (i : ℕ) : Option ℚ :=
  if samples = [] then none
  else some ((samples.map fun day => day.getD i 0).sum / samples.length)

/-- One turn of the loop of `_compare`. -/
def compareSlot (samples : List (List ℚ)) (measured : Measured) (actual : Option (List ℚ))
    (slot : ℚ) (i : ℕ) : BaselineSlot :=
  let base := averageAt samples i
  let act := match actual with
    | some values => values[i]?
    | none => measured.slot slot
  ⟨slot, base, act, act.bind fun a => base.map fun b => a - b⟩

/-- `_compare`: the slots. -/
def compareSlots (slots : List ℚ) (samples : List (List ℚ)) (measured : Measured) :
    List BaselineSlot :=
  slots.mapIdx fun i slot => compareSlot samples measured (measured.day slots) slot i

/-- An energy of `_compare`, in Wh: the sum of a power over the slots that are compared. -/
def comparedWh (s : Settings) (slots : List BaselineSlot) (power : BaselineSlot → Option ℚ) :
    Option ℚ :=
  let compared := slots.filter fun slot => slot.deltaW.isSome
  if compared = [] then none
  else some ((compared.map fun slot => (power slot).getD 0 * s.intervalSeconds / 3600).sum)

/-- The slots of a window. -/
def windowSlots (s : Settings) (start «end» : ℚ) : List ℚ :=
  (List.range ⌈(«end» - s.floor start) / s.intervalSeconds⌉.toNat).map fun i : ℕ =>
    s.floor start + (i : ℚ) * s.intervalSeconds

/-- The slots of the comparison days. -/
def candidateSlots (s : Settings) (args : BaselineArgs) (slots : List ℚ) (firstDay : ℤ) : List ℚ :=
  (backs args.lookbackDays).flatMap fun back => slots.map fun slot =>
    sameLocalTime s args.tz slot (firstDay - back)

/-- The devices that are summed. -/
def baselineDevices (lfdi : Option String) (actualRows history : List Presented) : List String :=
  match lfdi with
  | some lfdi => [lfdi.toLower]
  | none =>
      (((if actualRows = [] then history else actualRows).map (·.lfdi)).dedup).mergeSort
        fun a b => a ≤ b

/-- The check of the arguments. -/
def BaselineArgs.check (args : BaselineArgs) : Except BaselineError (ℚ × ℚ) :=
  match args.start, args.end with
  | some start, some «end» =>
      if «end» ≤ start then .error .endNotAfterStart
      else if maxBaselineSeconds < «end» - start then .error .windowTooLong
      else if args.days < 1 ∨ args.lookbackDays < 1 then .error .tooFewDays
      else .ok (start, «end»)
  | _, _ => .error .notFinite

/-- `baseline`, of the rows that the two calls of `_at` read: that of the window, and that of the
comparison days. -/
def baseline (s : Settings) (args : BaselineArgs) (windowRows dayRows : List Row) :
    Except BaselineError Baseline := do
  let (start, «end») ← args.check
  let slots := windowSlots s start «end»
  let first := s.floor start
  let candidates := candidateSlots s args slots (args.tz.dateAt first)
  let actualRows := (Request.starts slots args.lfdi).answer s windowRows
  let history := (Request.starts candidates args.lfdi).answer s dayRows
  let devices := baselineDevices args.lfdi actualRows history
  let measured : Measured :=
    { rows := (history ++ actualRows).foldl (fun d row => d.set (row.lfdi, row.start) row) .empty
      devices := devices
      minSeconds := args.minCoverage * s.intervalSeconds }
  let found := comparisonDays s args slots measured first
  let compared := compareSlots slots (found.map Prod.snd) measured
  let baselineWh := comparedWh s compared (·.baselineW)
  let actualWh := comparedWh s compared (·.actualW)
  return {
    lfdi := args.lfdi.map String.toLower
    devices := devices
    start := first
    «end» := slots.getLastD first + s.intervalSeconds
    intervalSeconds := s.intervalSeconds
    daysRequested := args.days
    daysUsed := found.map Prod.fst
    slots := compared
    baselineWh := baselineWh
    actualWh := actualWh
    deltaWh := actualWh.bind fun actual => baselineWh.map fun base => actual - base }

/-! ### Where the intervals lie -/

section Grid

variable {s : Settings}

/-- An interval starts before another if any instant of it comes before that starts. -/
theorem floor_lt_iff {t start : ℚ} (aligned : s.floor start = start) :
    s.floor t < start ↔ t < start := by
  constructor
  · intro earlier
    have ends := Settings.floor_add_le s aligned (s.floor_floor t) earlier
    have before := s.lt_floor_add t
    linarith
  · exact fun earlier => (s.floor_le t).trans_lt earlier

/-- Instants at least an interval apart are in different ones. -/
theorem floor_ne_of_apart {t u : ℚ} (apart : s.intervalSeconds ≤ |t - u|) :
    s.floor t ≠ s.floor u := by
  intro same
  have lower := s.floor_le t
  have lower' := s.floor_le u
  have upper := s.lt_floor_add t
  have upper' := s.lt_floor_add u
  rw [same] at lower upper
  rcases le_abs.mp apart with above | above <;> linarith

/-- Multiples of an interval that differ do so by an interval or more. -/
theorem seconds_le_abs {t : ℚ} {k : ℤ} (multiple : t = k * s.intervalSeconds) (some_ : t ≠ 0) :
    s.intervalSeconds ≤ |t| := by
  have pos := s.seconds_pos
  have nonzero : k ≠ 0 := by
    rintro rfl
    exact some_ (by rw [multiple, Int.cast_zero, zero_mul])
  have one : (1 : ℚ) ≤ |(k : ℚ)| := by exact_mod_cast Int.one_le_abs nonzero
  rw [multiple, abs_mul, abs_of_pos pos]
  exact le_mul_of_one_le_left pos.le one

theorem daySeconds_eq (s : Settings) :
    daySeconds = ((86400 / s.intervalSeconds : ℕ) : ℚ) * s.intervalSeconds := by
  have whole : 86400 / s.intervalSeconds * s.intervalSeconds = 86400 :=
    Nat.div_mul_cancel (Nat.dvd_of_mod_eq_zero s.divides)
  rw [daySeconds]
  exact_mod_cast whole.symm

/-- Slots less than a day apart, with one offset, have local times at least an interval apart. -/
theorem times_apart {z : Zone} {a b : ℚ} {m n : ℤ} (a_start : a = m * s.intervalSeconds)
    (b_start : b = n * s.intervalSeconds) (other : a ≠ b) (near : |a - b| < daySeconds)
    (same : z.offsetAt a = z.offsetAt b) :
    s.intervalSeconds ≤ |z.timeAt a - z.timeAt b| := by
  rw [z.timeAt_sub_timeAt same]
  set k : ℤ := z.dateAt a - z.dateAt b with dates
  have day : (0 : ℚ) < daySeconds := by norm_num [daySeconds]
  refine seconds_le_abs (k := m - n - k * ((86400 / s.intervalSeconds : ℕ) : ℤ)) ?_ fun zero => ?_
  · rw [a_start, b_start, daySeconds_eq s]
    simp only [Int.cast_sub, Int.cast_mul, Int.cast_natCast]
    ring
  · have difference : a - b = k * daySeconds := by linarith
    rw [difference, abs_mul, abs_of_pos day] at near
    have none_ : |(k : ℚ)| < 1 := by
      by_contra one
      exact absurd near (not_lt_of_ge (le_mul_of_one_le_left day.le (not_lt.mp one)))
    have zero : k = 0 := Int.abs_lt_one_iff.mp (by exact_mod_cast none_)
    rw [zero, Int.cast_zero, zero_mul] at difference
    exact other (sub_eq_zero.mp difference)

end Grid

/-! ### What is averaged -/

theorem mapM_eq_some {α β : Type} {f : α → Option β} {xs : List α} {ys : List β}
    (all : xs.mapM f = some ys) (default : β) :
    (∀ x ∈ xs, (f x).isSome) ∧ ys = xs.map fun x => (f x).getD default := by
  induction xs generalizing ys with
  | nil => exact ⟨fun x listed => absurd listed List.not_mem_nil, (Option.some.inj all).symm⟩
  | cons x rest ih =>
      rw [List.mapM_cons] at all
      obtain ⟨y, here, all⟩ := Option.bind_eq_some_iff.mp all
      obtain ⟨later, there, all⟩ := Option.bind_eq_some_iff.mp all
      cases Option.some.inj all
      obtain ⟨each, rfl⟩ := ih there
      refine ⟨fun x' listed => ?_, by rw [List.map_cons, here]; rfl⟩
      rcases List.mem_cons.mp listed with rfl | later
      · rw [here]; rfl
      · exact each x' later

namespace Measured

variable {m : Measured} {slots : List ℚ} {power : List ℚ}

/-- The power of a device in a slot where it was measured. -/
def powerAt (m : Measured) (slot : ℚ) (device : String) : ℚ := (m.power slot device).getD 0

/-- A day with power has that of every device in every slot. -/
theorem day_eq_some (whole : m.day slots = some power) :
    (∀ slot ∈ slots, ∀ device ∈ m.devices, (m.power slot device).isSome) ∧
      power = slots.map fun slot => (m.devices.map (m.powerAt slot)).sum := by
  obtain ⟨each, rfl⟩ := mapM_eq_some whole 0
  have slot_eq {slot : ℚ} (listed : slot ∈ slots) :
      (∀ device ∈ m.devices, (m.power slot device).isSome) ∧
        m.slot slot = some (m.devices.map (m.powerAt slot)).sum := by
    obtain ⟨total, summed⟩ := Option.isSome_iff_exists.mp (each slot listed)
    obtain ⟨values, all, -⟩ := Option.map_eq_some_iff.mp summed
    obtain ⟨measured, rfl⟩ := mapM_eq_some all 0
    exact ⟨measured, by rw [Measured.slot, all]; rfl⟩
  refine ⟨fun slot listed => (slot_eq listed).1, List.map_congr_left fun slot listed => ?_⟩
  rw [(slot_eq listed).2]
  rfl

/-- What a device measured is the average of a row that covers enough. -/
theorem power_eq_some {slot w : ℚ} {device : String} (measured : m.power slot device = some w) :
    ∃ row, m.rows.get? (device, slot) = some row ∧ row.wAvg = some w ∧
      m.minSeconds ≤ row.coveredSeconds := by
  obtain ⟨row, found, measured⟩ := Option.bind_eq_some_iff.mp measured
  obtain ⟨w', average, measured⟩ := Option.bind_eq_some_iff.mp measured
  split at measured
  · cases measured
  · rename_i enough
    cases measured
    exact ⟨row, found, average, not_lt.mp enough⟩

end Measured

/-- A day of the comparison: an earlier local date, and one that overlaps no excluded window. -/
structure Compares (args : BaselineArgs) (firstDay day : ℤ) : Prop where
  earlier : day < firstDay
  within : firstDay ≤ day + args.lookbackDays
  weekday : args.weekdaysOnly = true → weekday day < 5
  apart : ∀ w ∈ args.excluded,
    ¬ (w.1 < args.tz.midnight (day + 1) ∧ args.tz.midnight day < w.2)

section Days

variable {s : Settings} {args : BaselineArgs} {slots : List ℚ} {measured : Measured}
variable {firstDay : ℤ}

/-- What `_comparison_days` finds: comparison days, with what was measured on them. -/
theorem mem_compareBack {backs : List ℕ} {found : List (ℤ × List ℚ)} {entry : ℤ × List ℚ}
    (listed : entry ∈ compareBack s args slots measured firstDay backs found) :
    entry ∈ found ∨
      (∃ back ∈ backs, entry.1 = firstDay - back) ∧
        (args.weekdaysOnly = true → weekday entry.1 < 5) ∧
        EventHistory.excludes args.excluded (args.tz.midnight entry.1)
          (args.tz.midnight (entry.1 + 1)) = false ∧
        measured.day (slots.map fun slot => sameLocalTime s args.tz slot entry.1) =
          some entry.2 := by
  induction backs generalizing found with
  | nil => exact .inl listed
  | cons back rest ih =>
      have weaken {found' : List (ℤ × List ℚ)}
          (later : entry ∈ compareBack s args slots measured firstDay rest found') :=
        (ih later).imp_right fun spec => spec.imp_left fun found =>
          found.imp fun b => And.imp_left (List.mem_cons_of_mem back)
      rw [compareBack] at listed
      split at listed
      · exact .inl listed
      · dsimp only at listed
        split at listed
        · exact weaken listed
        · rename_i workday
          split at listed
          · exact weaken listed
          · rename_i free
            split at listed
            · exact weaken listed
            · rename_i power day
              rcases weaken listed with here | spec
              · rcases List.mem_append.mp here with old | new
                · exact .inl old
                · cases List.mem_singleton.mp new
                  refine .inr ⟨⟨back, List.mem_cons_self, rfl⟩, fun only => ?_, ?_, day⟩
                  · exact not_le.mp fun weekend => workday ⟨only, weekend⟩
                  · exact Bool.eq_false_iff.mpr free
              · exact .inr spec

theorem compares_of_mem {first : ℚ} {entry : ℤ × List ℚ}
    (listed : entry ∈ comparisonDays s args slots measured first) :
    Compares args (args.tz.dateAt first) entry.1 ∧
      measured.day (slots.map fun slot => sameLocalTime s args.tz slot entry.1) =
        some entry.2 := by
  rcases mem_compareBack listed with none_ | ⟨⟨back, member, same⟩, workday, free, day⟩
  · cases none_
  · obtain ⟨lower, upper⟩ := List.mem_range'_1.mp member
    refine ⟨⟨by omega, by omega, workday, fun w excluded overlaps => ?_⟩, day⟩
    have overlap : EventHistory.excludes args.excluded (args.tz.midnight entry.1)
        (args.tz.midnight (entry.1 + 1)) = true :=
      List.any_eq_true.mpr ⟨w, excluded, by simpa using overlaps⟩
    rw [free] at overlap
    cases overlap

end Days

/-! ### The rows -/

section Rows

variable {s : Settings} {rows : List Row}

theorem answer_starts (wanted : List ℚ) (lfdi : Option String) :
    (Request.starts wanted lfdi).answer s rows = rows.map (present s) := rfl

theorem get?_foldl_present {known : Dict Key Presented} {k : Key} {row : Presented}
    (found : ((rows.map (present s)).foldl (fun d row => d.set (row.lfdi, row.start) row) known).get?
      k = some row) :
    known.get? k = some row ∨ ∃ r ∈ rows, r.1 = k ∧ present s r = row := by
  induction rows generalizing known with
  | nil => exact .inl found
  | cons r rest ih =>
      rw [List.map_cons, List.foldl_cons] at found
      rcases ih found with here | ⟨r', later, same⟩
      · rw [Dict.get?_set] at here
        split at here
        · rename_i same
          exact .inr ⟨r, List.mem_cons_self, same.symm, Option.some.inj here⟩
        · exact .inl here
      · exact .inr ⟨r', List.mem_cons_of_mem r later, same⟩

end Rows

section Result

variable {s : Settings} {args : BaselineArgs} {windowRows dayRows : List Row} {b : Baseline}

/-- What a returned baseline is made of. -/
structure MadeOf (s : Settings) (args : BaselineArgs) (rows : List Row) (b : Baseline)
    (slots : List ℚ) (m : Measured) : Prop where
  used : b.daysUsed = (comparisonDays s args slots m b.start).map Prod.fst
  compared : b.slots = compareSlots slots ((comparisonDays s args slots m b.start).map Prod.snd) m
  devices : b.devices = m.devices
  coverage : m.minSeconds = args.minCoverage * s.intervalSeconds
  stored : ∀ k row, m.rows.get? k = some row → ∃ r ∈ rows, r.1 = k ∧ present s r = row
  grid : ∀ slot ∈ slots, ∃ k : ℤ, slot = k * s.intervalSeconds
  aligned : s.floor b.start = b.start

theorem madeOf_of_returned (returned : baseline s args windowRows dayRows = .ok b) :
    ∃ slots m, MadeOf s args (dayRows ++ windowRows) b slots m := by
  unfold baseline at returned
  cases checked : args.check with
  | error e =>
      rw [checked] at returned
      cases returned
  | ok window =>
      rw [checked] at returned
      cases returned
      refine ⟨_, _, rfl, rfl, rfl, rfl, fun k row found => ?_, fun slot listed => ?_,
        s.floor_floor _⟩
      · rw [answer_starts, answer_starts, ← List.map_append] at found
        exact (get?_foldl_present found).resolve_left (by simp)
      · obtain ⟨i, -, rfl⟩ := List.mem_map.mp listed
        refine ⟨⌊window.1 / s.intervalSeconds⌋ + i, ?_⟩
        rw [Settings.floor]
        push_cast
        ring

variable {slots : List ℚ} {m : Measured} {rows : List Row} {slot : BaselineSlot}

namespace MadeOf

theorem slot_of_mem (made : MadeOf s args rows b slots m) (listed : slot ∈ b.slots) :
    ∃ i, slots[i]? = some slot.start ∧
      slot.baselineW = averageAt ((comparisonDays s args slots m b.start).map Prod.snd) i := by
  rw [made.compared, compareSlots] at listed
  obtain ⟨i, bound, rfl⟩ := List.mem_mapIdx.mp listed
  exact ⟨i, List.getElem?_eq_getElem bound, rfl⟩

/-- The average is over the devices on the days used. -/
theorem baselineW_eq (made : MadeOf s args rows b slots m) (listed : slot ∈ b.slots) :
    slot.baselineW = if b.daysUsed = [] then none else
      some ((b.daysUsed.map fun day =>
        (b.devices.map (m.powerAt (sameLocalTime s args.tz slot.start day))).sum).sum /
          b.daysUsed.length) := by
  obtain ⟨i, here, average⟩ := made.slot_of_mem listed
  rw [average, averageAt, made.used, made.devices]
  simp only [List.map_eq_nil_iff, List.length_map, List.map_map]
  congr 4
  refine List.map_congr_left fun entry used => ?_
  obtain ⟨-, power⟩ := Measured.day_eq_some (compares_of_mem used).2
  simp only [Function.comp_apply, power, List.map_map, List.getD_eq_getElem?_getD,
    List.getElem?_map, here, Option.map_some, Option.getD_some]

/-- Every power is that of a stored interval that covers enough. -/
theorem stored_of_mem (made : MadeOf s args rows b slots m) {day : ℤ} (used : day ∈ b.daysUsed)
    (listed : slot ∈ b.slots) {device : String} (summed : device ∈ b.devices) :
    ∃ row ∈ rows, row.1 = (device, sameLocalTime s args.tz slot.start day) ∧
      (present s row).wAvg =
        some (m.powerAt (sameLocalTime s args.tz slot.start day) device) ∧
      args.minCoverage * s.intervalSeconds ≤ row.2.coveredSeconds := by
  rw [made.used] at used
  rw [made.devices] at summed
  obtain ⟨entry, found, rfl⟩ := List.mem_map.mp used
  obtain ⟨i, here, -⟩ := made.slot_of_mem listed
  have some_ := (Measured.day_eq_some (compares_of_mem found).2).1
    _ (List.mem_map_of_mem (List.mem_of_getElem? here)) device summed
  obtain ⟨w, measured⟩ := Option.isSome_iff_exists.mp some_
  obtain ⟨row, held, average, enough⟩ := Measured.power_eq_some measured
  obtain ⟨r, stored, key, rfl⟩ := made.stored _ row held
  refine ⟨r, stored, key, ?_, made.coverage ▸ enough⟩
  rw [average, Measured.powerAt, measured]
  rfl

theorem compares (made : MadeOf s args rows b slots m) {day : ℤ} (used : day ∈ b.daysUsed) :
    Compares args (args.tz.dateAt b.start) day := by
  rw [made.used] at used
  obtain ⟨entry, found, rfl⟩ := List.mem_map.mp used
  exact (compares_of_mem found).1

theorem slot_grid (made : MadeOf s args rows b slots m) (listed : slot ∈ b.slots) :
    ∃ k : ℤ, slot.start = k * s.intervalSeconds := by
  obtain ⟨i, here, -⟩ := made.slot_of_mem listed
  exact made.grid _ (List.mem_of_getElem? here)

end MadeOf

end Result

/-- Each baseline is an average over comparison days and devices, of stored intervals that cover
enough. The days are earlier ones that overlap no excluded window. The interval starts before the
window where its local time on that day comes before it, and overlaps no excluded window where it
lies within that day; those of slots whose local times are an interval apart differ, if they have
one offset on that day. -/
theorem baseline_of_earlier_days (s : Settings) (args : BaselineArgs)
    (windowRows dayRows : List Row) (b : Baseline)
    (returned : baseline s args windowRows dayRows = .ok b) :
    let used := sameLocalTime s args.tz
    let instant := sameInstant args.tz
    let offset := fun slot day => args.tz.utcoffset (Zone.wall day (args.tz.timeAt slot))
      (args.tz.foldAt slot)
    (∃ power : ℤ → ℚ → String → ℚ,
      (∀ slot ∈ b.slots, slot.baselineW = if b.daysUsed = [] then none else
        some ((b.daysUsed.map fun day => (b.devices.map (power day slot.start)).sum).sum /
          b.daysUsed.length)) ∧
      ∀ day ∈ b.daysUsed, ∀ slot ∈ b.slots, ∀ device ∈ b.devices,
        ∃ row ∈ dayRows ++ windowRows, row.1 = (device, used slot.start day) ∧
          (present s row).wAvg = some (power day slot.start device) ∧
          args.minCoverage * s.intervalSeconds ≤ row.2.coveredSeconds) ∧
    ∀ day ∈ b.daysUsed, Compares args (args.tz.dateAt b.start) day ∧ ∀ slot ∈ b.slots,
      (used slot.start day < b.start ↔ instant slot.start day < b.start) ∧
      (args.tz.DatesAdvance →
        args.tz.dateAt (instant slot.start day) < args.tz.dateAt b.start →
        used slot.start day < b.start) ∧
      (args.tz.midnight day ≤ used slot.start day →
        used slot.start day + s.intervalSeconds ≤ args.tz.midnight (day + 1) →
        ∀ w ∈ args.excluded,
          ¬ (w.1 < used slot.start day + s.intervalSeconds ∧ used slot.start day < w.2)) ∧
      ∀ other ∈ b.slots,
        (offset slot.start day = offset other.start day →
          s.intervalSeconds ≤ |args.tz.timeAt slot.start - args.tz.timeAt other.start| →
          used slot.start day ≠ used other.start day) ∧
        (slot.start ≠ other.start → |slot.start - other.start| < daySeconds →
          args.tz.offsetAt slot.start = args.tz.offsetAt other.start →
          s.intervalSeconds ≤ |args.tz.timeAt slot.start - args.tz.timeAt other.start|) := by
  intro used instant offset
  obtain ⟨slots, m, made⟩ := madeOf_of_returned returned
  refine ⟨⟨fun day slot device => m.powerAt (used slot day) device, fun slot listed => ?_,
    fun day compared slot listed device summed => made.stored_of_mem compared listed summed⟩,
    fun day compared => ⟨made.compares compared, fun slot listed => ⟨?_, ?_, ?_, ?_⟩⟩⟩
  · exact made.baselineW_eq listed
  · exact floor_lt_iff made.aligned
  · intro advance earlier
    exact (floor_lt_iff made.aligned).mpr (advance.lt earlier)
  · intro starts ends w excluded overlaps
    refine (made.compares compared).apart w excluded ⟨?_, ?_⟩
    · exact overlaps.1.trans_le ends
    · exact starts.trans_lt overlaps.2
  · intro other listed'
    obtain ⟨k, slot_start⟩ := made.slot_grid listed
    obtain ⟨n, other_start⟩ := made.slot_grid listed'
    constructor
    · intro same apart
      refine floor_ne_of_apart ?_
      rwa [sameInstant, sameInstant, Zone.instant_sub_instant same]
    · intro distinct near same
      exact times_apart slot_start other_start distinct near same

/-! ### Where days are not alike -/

theorem exists_of_any {x : Except BaselineError Baseline} {p : Baseline → Prop} [DecidablePred p]
    (holds : (x.toOption.any fun b => p b) = true) : ∃ b, x = .ok b ∧ p b := by
  cases x with
  | error e => cases holds
  | ok b => exact ⟨b, rfl, of_decide_eq_true holds⟩

/-- Intervals of an hour. -/
def hourly : Settings := ⟨3600, 900, by decide, by decide, by norm_num⟩

def halfDaily : Settings := ⟨43200, 900, by decide, by decide, by norm_num⟩

/-- An interval that was measured whole, at 100 W. -/
def measuredWhole (s : Settings) (start : ℚ) : Row :=
  (("aa", start),
    { coveredSeconds := s.intervalSeconds, samples := 4, wsPositive := 100 * s.intervalSeconds })

/-- A window of one device, compared with the day before. -/
def dayBefore (start «end» : ℚ) (excluded : List (ℚ × ℚ)) (tz : Zone) : BaselineArgs :=
  { start := some start
    «end» := some «end»
    lfdi := some "aa"
    days := 1
    lookbackDays := 1
    weekdaysOnly := false
    excluded := excluded
    tz := tz }

/-- From 10 hours behind UTC to 14 ahead of it, so that day 10 is skipped. -/
def skipsDay : Zone := ⟨-36000, [(900000, 50400)]⟩

/-- Five and a half hours ahead of UTC. -/
def halfHour : Zone := ⟨19800, []⟩

/-- Set back from 2:00 to 1:00 on day 10. -/
def setsBack : Zone := ⟨-25200, [(896400, -28800)]⟩

def utc : Zone := ⟨0, []⟩

/-- The interval used can be that of the slot itself, after a day that was skipped; it can reach
into an excluded window after midnight; and it can be the same for two slots, at an hour that is
shown twice, or where the first and the last slot are a day apart. -/
theorem baseline_outside :
    (∃ b, baseline hourly (dayBefore 943200 946800 [] skipsDay) [measuredWhole hourly 943200]
        [measuredWhole hourly 943200] = .ok b ∧
      ∃ day ∈ b.daysUsed, ∃ slot ∈ b.slots,
        ¬ sameLocalTime hourly skipsDay slot.start day < b.start) ∧
    (∃ b, baseline hourly (dayBefore 928800 932400 [(844200, 846000)] halfHour) []
        [measuredWhole hourly 842400] = .ok b ∧
      ∃ day ∈ b.daysUsed, ∃ slot ∈ b.slots,
        844200 < sameLocalTime hourly halfHour slot.start day + 3600 ∧
          sameLocalTime hourly halfHour slot.start day < 846000) ∧
    (∃ b, baseline hourly (dayBefore 892800 900000 [] setsBack) []
        [measuredWhole hourly 806400] = .ok b ∧
      ∃ day ∈ b.daysUsed, ∃ slot ∈ b.slots, ∃ other ∈ b.slots, slot.start ≠ other.start ∧
        sameLocalTime hourly setsBack slot.start day =
          sameLocalTime hourly setsBack other.start day) ∧
    ∃ b, baseline halfDaily (dayBefore 864100 950500 [] utc) []
        [measuredWhole halfDaily 777600, measuredWhole halfDaily 820800] = .ok b ∧
      ∃ day ∈ b.daysUsed, ∃ slot ∈ b.slots, ∃ other ∈ b.slots, slot.start ≠ other.start ∧
        sameLocalTime halfDaily utc slot.start day =
          sameLocalTime halfDaily utc other.start day :=
  ⟨exists_of_any (by decide +kernel), exists_of_any (by decide +kernel),
    exists_of_any (by decide +kernel), exists_of_any (by decide +kernel)⟩

/-- Two hours, the day before which is excluded. -/
def skipsExcluded : BaselineArgs :=
  { dayBefore 892800 900000 [(800000, 810000)] utc with lookbackDays := 2 }

/-- The day before that one is used, and neither of its intervals is in the window. -/
theorem baseline_of_hour :
    ∃ b, baseline hourly skipsExcluded []
        [measuredWhole hourly 720000, measuredWhole hourly 723600] = .ok b ∧
      (b.daysUsed = [8] ∧ b.slots.length = 2 ∧ ∀ slot ∈ b.slots, slot.baselineW = some 100) ∧
      ∀ day ∈ b.daysUsed, Compares skipsExcluded (utc.dateAt b.start) day ∧
        ∀ slot ∈ b.slots,
          (sameLocalTime hourly utc slot.start day < b.start ↔
            sameInstant utc slot.start day < b.start) ∧
          (utc.midnight day ≤ sameLocalTime hourly utc slot.start day →
            sameLocalTime hourly utc slot.start day + 3600 ≤ utc.midnight (day + 1) →
            ¬ (800000 < sameLocalTime hourly utc slot.start day + 3600 ∧
              sameLocalTime hourly utc slot.start day < 810000)) := by
  obtain ⟨b, returned, used⟩ : ∃ b, baseline hourly skipsExcluded []
      [measuredWhole hourly 720000, measuredWhole hourly 723600] = .ok b ∧ b.daysUsed = [8] ∧
        b.slots.length = 2 ∧ ∀ slot ∈ b.slots, slot.baselineW = some 100 :=
    exists_of_any (by decide +kernel)
  refine ⟨b, returned, used, fun day listed => ?_⟩
  obtain ⟨compares, each⟩ := (baseline_of_earlier_days _ _ _ _ b returned).2 day listed
  refine ⟨compares, fun slot here => ?_⟩
  obtain ⟨before, -, apart, -⟩ := each slot here
  exact ⟨before, fun starts ends => apart starts ends (800000, 810000) List.mem_cons_self⟩

end Py20305.Intervals
