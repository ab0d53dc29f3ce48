import Mathlib.Algebra.BigOperators.Group.List.Basic
import Mathlib.Algebra.Order.Floor.Ring
import Mathlib.Data.Rat.Floor
import Py20305.Lib.Dict

/-!
The interval history: readings integrated into fixed intervals as they arrive.

Times and values are exact rationals. A device holds its last reading until the
next one; the hold is split at the interval ends and added to the running sums of
each interval it crosses. Finished intervals are handed to the database as one
batch, whose number is recorded on each bucket of it.

The recorders and the writer thread take turns: every method of `IntervalHistory`
runs under one lock and the writer runs one batch under the database's lock, so
each is one `Step`.
-/

namespace Py20305.Intervals

/-- A value handed to the recorder. -/
inductive Value where
  | missing
  | bool (b : Bool)
  | int (n : ℤ)
  | float (q : ℚ)
  | nonfinite
  | text (s : String)
  deriving DecidableEq

/-- `_number`: a finite number, or none. -/
def number : Value → Option ℚ
  | .int n => some n
  | .float q => some q
  | _ => none

/-- What a device reports as available power: a plain value, or a mapping with
`value` and `multiplier`. -/
inductive Reported where
  | plain (v : Value)
  | pair (value multiplier : Value)
  deriving DecidableEq

/-- `value or 0`. -/
def Value.orZero : Value → Value
  | .missing => .int 0
  | .bool false => .int 0
  | .float q => if q = 0 then .int 0 else .float q
  | .text s => if s = "" then .int 0 else .text s
  | v => v

def activePower : Reported → Option ℚ
  | .plain v => number v
  | .pair value multiplier =>
      match number value, multiplier.orZero with
      | some base, .int m => some (base * 10 ^ m)
      | _, _ => none

/-- The arguments `IntervalHistory` accepts. -/
structure Settings where
  intervalSeconds : ℕ
  maxGapSeconds : ℚ
  positive : 0 < intervalSeconds
  divides : 86400 % intervalSeconds = 0
  gap : 0 < maxGapSeconds

/-- `_floor`: the start of the interval that holds `t`. -/
def Settings.floor (s : Settings) (t : ℚ) : ℚ := ⌊t / s.intervalSeconds⌋ * s.intervalSeconds

/-- One running sum per stored column. -/
@[ext] structure Sums where
  coveredSeconds : ℚ := 0
  samples : ℕ := 0
  wsPositive : ℚ := 0
  wsNegative : ℚ := 0
  wMin : Option ℚ := none
  wMax : Option ℚ := none
  varSeconds : ℚ := 0
  varsPositive : ℚ := 0
  varsNegative : ℚ := 0
  availSeconds : ℚ := 0
  availWs : ℚ := 0
  curtailSeconds : ℚ := 0
  curtailedWs : ℚ := 0
  deriving DecidableEq

/-- The one of two extremes that `pick` takes, where both are known. -/
def pickOf (pick : ℚ → ℚ → ℚ) : Option ℚ → Option ℚ → Option ℚ
  | none, b => b
  | a, none => a
  | some a, some b => some (pick a b)

/-- `_add`, and what the upsert does to a stored row: the sums add, the extremes
take the wider of the two. -/
def Sums.add (a b : Sums) : Sums where
  coveredSeconds := a.coveredSeconds + b.coveredSeconds
  samples := a.samples + b.samples
  wsPositive := a.wsPositive + b.wsPositive
  wsNegative := a.wsNegative + b.wsNegative
  wMin := pickOf min a.wMin b.wMin
  wMax := pickOf max a.wMax b.wMax
  varSeconds := a.varSeconds + b.varSeconds
  varsPositive := a.varsPositive + b.varsPositive
  varsNegative := a.varsNegative + b.varsNegative
  availSeconds := a.availSeconds + b.availSeconds
  availWs := a.availWs + b.availWs
  curtailSeconds := a.curtailSeconds + b.curtailSeconds
  curtailedWs := a.curtailedWs + b.curtailedWs

instance : Zero Sums := ⟨{}⟩
instance : Add Sums := ⟨Sums.add⟩

theorem Sums.add_def (a b : Sums) : a + b = a.add b := rfl
theorem Sums.zero_def : (0 : Sums) = {} := rfl

section Pick

variable {pick : ℚ → ℚ → ℚ}

@[simp] theorem pickOf_none (a : Option ℚ) : pickOf pick a none = a := by cases a <;> rfl

@[simp] theorem none_pickOf (b : Option ℚ) : pickOf pick none b = b := by cases b <;> rfl

theorem pickOf_comm (comm : ∀ a b, pick a b = pick b a) (a b : Option ℚ) :
    pickOf pick a b = pickOf pick b a := by
  cases a <;> cases b <;> simp [pickOf, comm]

theorem pickOf_assoc (assoc : ∀ a b c, pick (pick a b) c = pick a (pick b c))
    (a b c : Option ℚ) : pickOf pick (pickOf pick a b) c = pickOf pick a (pickOf pick b c) := by
  cases a <;> cases b <;> cases c <;> simp [pickOf, assoc]

end Pick

/-- Running sums form a commutative monoid, extremes included. -/
instance : AddCommMonoid Sums where
  add_assoc a b c := by
    ext1 <;> simp only [Sums.add_def, Sums.add, add_assoc]
    · exact pickOf_assoc min_assoc _ _ _
    · exact pickOf_assoc max_assoc _ _ _
  zero_add a := by ext1 <;> simp [Sums.add_def, Sums.zero_def, Sums.add]
  add_zero a := by ext1 <;> simp [Sums.add_def, Sums.zero_def, Sums.add]
  add_comm a b := by
    ext1 <;> simp only [Sums.add_def, Sums.add, add_comm]
    · exact pickOf_comm min_comm _ _
    · exact pickOf_comm max_comm _ _
  nsmul := nsmulRec

/-- One turn of the loop of `_integrate`: the reading held for `dt` seconds. -/
def Sums.hold (b : Sums) (w var avail : Option ℚ) (dt : ℚ) : Sums :=
  let b := match w with
    | none => b
    | some w =>
        { b with
          coveredSeconds := b.coveredSeconds + dt
          wMin := pickOf min b.wMin (some w)
          wMax := pickOf max b.wMax (some w)
          wsPositive := if 0 ≤ w then b.wsPositive + w * dt else b.wsPositive
          wsNegative := if 0 ≤ w then b.wsNegative else b.wsNegative + w * dt }
  let b := match var with
    | none => b
    | some var =>
        { b with
          varSeconds := b.varSeconds + dt
          varsPositive := if 0 ≤ var then b.varsPositive + var * dt else b.varsPositive
          varsNegative := if 0 ≤ var then b.varsNegative else b.varsNegative + var * dt }
  match avail with
  | none => b
  | some avail =>
      let b := { b with
        availSeconds := b.availSeconds + dt
        availWs := b.availWs + avail * dt }
      match w with
      | none => b
      | some w =>
          { b with
            curtailSeconds := b.curtailSeconds + dt
            curtailedWs := b.curtailedWs + max 0 (avail - max w 0) * dt }

/-- What `observe` notes on the interval of the reading itself. -/
def Sums.sample (b : Sums) (w : Option ℚ) : Sums :=
  { b with
    samples := b.samples + 1
    wMin := pickOf min b.wMin w
    wMax := pickOf max b.wMax w }

theorem Sums.hold_eq_add (b : Sums) (w var avail : Option ℚ) (dt : ℚ) :
    b.hold w var avail dt = b + Sums.hold 0 w var avail dt := by
  cases w <;> cases var <;> cases avail <;> ext1 <;>
    simp [Sums.hold, Sums.add_def, Sums.zero_def, Sums.add] <;> split_ifs <;> simp

theorem Sums.sample_eq_add (b : Sums) (w : Option ℚ) : b.sample w = b + Sums.sample 0 w := by
  ext1 <;> simp [Sums.sample, Sums.add_def, Sums.zero_def, Sums.add]

/-- A bucket object in memory. No two buckets of one interval were opened by the same
reading, so `opened` tells them apart. -/
structure Bucket where
  sums : Sums
  opened : ℕ
  deriving DecidableEq

/-- The last reading of one device and its unfinished intervals. -/
structure Device where
  seenAt : Option ℚ := none
  w : Option ℚ := none
  var : Option ℚ := none
  avail : Option ℚ := none
  availAt : Option ℚ := none
  buckets : Dict ℚ Bucket := Dict.empty

/-- `_bucket` and an update of what it returns: the interval is opened where it is not. -/
def Device.deposit (d : Device) (start : ℚ) (reading : ℕ) (f : Sums → Sums) : Device :=
  let bucket := d.buckets.getD start ⟨0, reading⟩
  { d with buckets := d.buckets.set start { bucket with sums := f bucket.sums } }

@[simp] theorem w_deposit (d : Device) (start : ℚ) (reading : ℕ) (f : Sums → Sums) :
    (d.deposit start reading f).w = d.w := rfl

@[simp] theorem var_deposit (d : Device) (start : ℚ) (reading : ℕ) (f : Sums → Sums) :
    (d.deposit start reading f).var = d.var := rfl

/-- The loop of `_integrate`, for at most so many turns. -/
def Device.holdUntil (s : Settings) (avail : Option ℚ) (reading : ℕ) (t1 : ℚ) :
    ℕ → ℚ → Device → Device
  | 0, _, d => d
  | turns + 1, t0, d =>
      if t0 < t1 then
        let start := s.floor t0
        let stop := min t1 (start + s.intervalSeconds)
        holdUntil s avail reading t1 turns stop
          (d.deposit start reading fun b => b.hold d.w d.var avail (stop - t0))
      else d

/-- The intervals that `[t0, t1]` reaches into: the loop of `_integrate` takes one turn
for each. -/
def Settings.turns (s : Settings) (t0 t1 : ℚ) : ℕ :=
  (⌊t1 / s.intervalSeconds⌋ - ⌊t0 / s.intervalSeconds⌋).toNat + 1

/-- The available power `_integrate` counts: none that was reported too far from `t0`. -/
def Device.available (s : Settings) (d : Device) (t0 : ℚ) : Option ℚ :=
  match d.avail, d.availAt with
  | some avail, some t => if s.maxGapSeconds < |t0 - t| then none else some avail
  | _, _ => none

/-- `_integrate`: hold the last reading from `t0` to `t1`. -/
def Device.integrate (s : Settings) (d : Device) (reading : ℕ) (t0 t1 : ℚ) : Device :=
  d.holdUntil s (d.available s t0) reading t1 (s.turns t0 t1) t0

/-- A device and the start of an interval. -/
abbrev Key := String × ℚ

abbrev Row := Key × Sums

/-- `HistoryDatabase`, as far as one table of it. -/
structure Database where
  closed : Bool := false
  /-- Every batch accepted, in order: the number of a batch is its place in this list,
  from one. A batch for another table has no rows here. -/
  accepted : List (List Row) := []
  /-- How many of them the writer has taken off the queue. -/
  taken : ℕ := 0
  /-- How many of them have run. -/
  written : ℕ := 0
  /-- The rows of batches that were not accepted. -/
  refused : List Row := []
  table : Dict Key Sums := Dict.empty

/-- `_queued`. -/
def Database.queued (db : Database) : ℕ := db.accepted.length

def maxPendingWrites : ℕ := 10000

/-- `queue_batch`: the number of the batch, or none where the history is closed or the
queue is full. -/
def Database.queueBatch (db : Database) (rows : List Row) : Option ℕ × Database :=
  if db.closed then (none, { db with refused := db.refused ++ rows })
  else if db.queued - db.taken < maxPendingWrites then
    (some (db.queued + 1), { db with accepted := db.accepted ++ [rows] })
  else (none, { db with refused := db.refused ++ rows })

/-- The upsert of one row. -/
def upsert (table : Dict Key Sums) (row : Row) : Dict Key Sums :=
  match table.get? row.1 with
  | none => table.set row.1 row.2
  | some stored => table.set row.1 (stored + row.2)

/-- The writer takes the next batch off the queue. -/
def Database.take (db : Database) : Database :=
  if db.taken = db.written ∧ db.taken < db.queued then { db with taken := db.taken + 1 } else db

/-- The writer runs the batch it took. A batch that fails is rolled back; one that
succeeds may be followed by the deletion of the rows that start before `cutoff`. -/
def Database.runBatch (db : Database) (fails : Bool) (cutoff : Option ℚ) : Database :=
  if db.written < db.taken then
    let rows := db.accepted[db.written]?.getD []
    let table := if fails then db.table else rows.foldl upsert db.table
    let kept := match cutoff with
      | none => table
      | some t => if fails then table else table.filter fun k _ => decide (t ≤ k.2)
    { db with table := kept, written := db.written + 1 }
  else db

/-- `IntervalHistory`. -/
structure History where
  devices : Dict String Device := Dict.empty
  /-- The readings taken so far. -/
  readings : ℕ := 0
  /-- The batch recorded on a bucket that was queued. -/
  batches : Dict (Key × ℕ) ℕ := Dict.empty
  db : Database := {}

/-- `_write`: queue finished buckets and record their batch. -/
def History.write (h : History) (done : List (Key × Bucket)) : History :=
  if done.isEmpty then h
  else
    let (batch, db) := h.db.queueBatch (done.map fun (key, bucket) => (key, bucket.sums))
    match batch with
    | none => { h with db := db }
    | some n =>
        { h with
          db := db
          batches := done.foldl (fun bs (key, bucket) => bs.set (key, bucket.opened) n) h.batches }

/-- The row of a bucket. -/
def Bucket.row (e : Key × Bucket) : Row := (e.1, e.2.sums)

@[simp] theorem devices_write (h : History) (done : List (Key × Bucket)) :
    (h.write done).devices = h.devices := by
  simp only [History.write]
  split_ifs
  · rfl
  · split <;> rfl

@[simp] theorem readings_write (h : History) (done : List (Key × Bucket)) :
    (h.write done).readings = h.readings := by
  simp only [History.write]
  split_ifs
  · rfl
  · split <;> rfl

theorem db_write (h : History) (done : List (Key × Bucket)) (some_done : done ≠ []) :
    (h.write done).db = (h.db.queueBatch (done.map Bucket.row)).2 := by
  have not_empty : done.isEmpty = false := by simpa using some_done
  simp only [History.write, not_empty, Bool.false_eq_true, if_false]
  split <;> rfl

/-- The buckets of a device as `_write` takes them. -/
def keyed (name : String) (buckets : List (ℚ × Bucket)) : List (Key × Bucket) :=
  buckets.map fun (start, bucket) => ((name, start), bucket)

/-- Store a device and write its intervals that start before `start`, oldest first. -/
def History.flushBefore (h : History) (name : String) (device : Device) (start : ℚ) : History :=
  let done := (device.buckets.entries.filter fun e => decide (e.1 < start)).mergeSort
    fun a b => decide (a.1 ≤ b.1)
  let kept := { device with buckets := device.buckets.filter fun t _ => !decide (t < start) }
  { h with devices := h.devices.set name kept }.write (keyed name done)

/-- The device a method works on: `self._devices.setdefault(lfdi.lower(), _Device())`. An
LFDI is hexadecimal digits. -/
def History.device (h : History) (lfdi : String) : Device := h.devices.getD lfdi.toLower {}

/-- The last reading is held to `t`, unless that bridges too long a gap. -/
def Device.heldTo (s : Settings) (d : Device) (reading : ℕ) (t : ℚ) : Device :=
  match d.seenAt with
  | none => d
  | some t0 => if t - t0 ≤ s.maxGapSeconds then d.integrate s reading t0 t else d

/-- The device with the reading taken and noted on its own interval. -/
def Device.takeReading (s : Settings) (d : Device) (reading : ℕ) (t : ℚ) (w var : Value) :
    Device :=
  { d with seenAt := some t, w := number w, var := number var }.deposit (s.floor t) reading
    fun b => b.sample (number w)

/-- A reading no newer than the last one. -/
def Device.alreadySeen (d : Device) (t : ℚ) : Bool := d.seenAt.any fun t0 => decide (t ≤ t0)

/-- Take one reading of a device. -/
def History.observe (s : Settings) (h : History) (lfdi : String) (t : ℚ) (w var : Value) :
    History :=
  let device := h.device lfdi
  if device.alreadySeen t then { h with devices := h.devices.set lfdi.toLower device }
  else
    let noted := (device.heldTo s h.readings t).takeReading s h.readings t w var
    { h with readings := h.readings + 1 }.flushBefore lfdi.toLower noted (s.floor t)

/-- Take one reading of a device's available real power. -/
def History.observeAvailability (h : History) (lfdi : String) (t : ℚ) (wAvail : Reported) :
    History :=
  let avail := activePower wAvail
  let device := { h.device lfdi with avail := avail, availAt := avail.map fun _ => t }
  { h with devices := h.devices.set lfdi.toLower device }

/-- Stop holding a device's last reading. -/
def History.interrupt (h : History) (lfdi : String) : History :=
  { h with devices := h.devices.modify lfdi.toLower fun d => { d with seenAt := none } }

/-- Every bucket in memory. -/
def History.openBuckets (h : History) : List (Key × Bucket) :=
  h.devices.entries.flatMap fun (name, device) => keyed name device.buckets.entries

/-- Write every unfinished interval. -/
def History.flush (h : History) : History :=
  let cleared := h.devices.mapValues fun d => { d with buckets := Dict.empty }
  { h with devices := cleared }.write h.openBuckets

/-- What the recorders, the writer thread and the other users of the database do. -/
inductive Step where
  | observe (lfdi : String) (t : ℚ) (w var : Value)
  | observeAvailability (lfdi : String) (t : ℚ) (wAvail : Reported)
  | interrupt (lfdi : String)
  | flush
  | queueOther
  | take
  | runBatch (fails : Bool) (cutoff : Option ℚ)
  | close

def History.step (s : Settings) (h : History) : Step → History
  | .observe lfdi t w var => h.observe s lfdi t w var
  | .observeAvailability lfdi t wAvail => h.observeAvailability lfdi t wAvail
  | .interrupt lfdi => h.interrupt lfdi
  | .flush => h.flush
  | .queueOther => { h with db := (h.db.queueBatch []).2 }
  | .take => { h with db := h.db.take }
  | .runBatch fails cutoff => { h with db := h.db.runBatch fails cutoff }
  | .close => { h with db := { h.db with closed := true } }

/-! ### What a step records -/

/-- The pieces of `[t0, t1]` the loop of `_integrate` adds to, with their lengths. -/
def Settings.piecesFrom (s : Settings) (t1 : ℚ) : ℕ → ℚ → List (ℚ × ℚ)
  | 0, _ => []
  | turns + 1, t0 =>
      if t0 < t1 then
        let stop := min t1 (s.floor t0 + s.intervalSeconds)
        (s.floor t0, stop - t0) :: piecesFrom s t1 turns stop
      else []

def Settings.pieces (s : Settings) (t0 t1 : ℚ) : List (ℚ × ℚ) :=
  s.piecesFrom t1 (s.turns t0 t1) t0

/-- What holding the last reading adds, bucket by bucket. -/
def Device.heldRows (s : Settings) (d : Device) (name : String) (t0 t1 : ℚ) : List Row :=
  (s.pieces t0 t1).map fun (start, dt) =>
    ((name, start), Sums.hold 0 d.w d.var (d.available s t0) dt)

/-- What the hold that a reading at `t` ends adds. -/
def Device.bridgedRows (s : Settings) (d : Device) (name : String) (t : ℚ) : List Row :=
  match d.seenAt with
  | none => []
  | some t0 => if t - t0 ≤ s.maxGapSeconds then d.heldRows s name t0 t else []

/-- What a reading at `t` adds: the hold it ends, and the sample itself. -/
def Device.readRows (s : Settings) (d : Device) (name : String) (t : ℚ) (w : Value) : List Row :=
  d.bridgedRows s name t ++ [((name, s.floor t), Sums.sample 0 (number w))]

/-- What a step adds to the buckets. -/
def History.recorded (s : Settings) (h : History) : Step → List Row
  | .observe lfdi t w _ =>
      if (h.device lfdi).alreadySeen t then []
      else (h.device lfdi).readRows s lfdi.toLower t w
  | _ => []

/-- The history after the steps, one after the other. -/
def History.run (s : Settings) (h : History) (steps : List Step) : History :=
  steps.foldl (fun h x => h.step s x) h

end Py20305.Intervals
