import Mathlib
import Py20305.History.Intervals
import Py20305.Lib.Dict
import Py20305.Lib.Machine
import Py20305.Telemetry.Readings

/-!
Where the metering cycles get their readings (`readings.py`).

A device is read through its connector on every request. What a successful read gave is kept, and a
read that fails answers with it, marked as lost. Reads of several devices, and of one, overlap.

No valid reading is lost between the connector and the cycle (`readings_indexed`), and a cycle goes on
with what its own read gave or, marked stale and with its old time, with what the last successful one
gave (`answers_tell`).

Left out: a connector's declaration that is not one, which counts as none, the demand that is
announced and not used, and the report to a monitoring system.
-/

namespace Py20305.Telemetry

/-! ### Keys -/

/-- The parts of `reading_key`. -/
def Reading.keyParts (r : Reading) : List String :=
  ["uom" ++ Int.repr r.uom, "phase" ++ Int.repr r.phase, "kind" ++ Int.repr r.kind,
    "dq" ++ Int.repr r.dataQualifier, "acc" ++ Int.repr r.accumulationBehaviour] ++
  (r.flowDirection.map fun flow => "flow" ++ Int.repr flow).toList

/-- `reading_key`. -/
def readingKey (r : Reading) : String := ":".intercalate r.keyParts

/-- The key of a second reading that differs from an earlier one in its multiplier only. -/
def Reading.multiplierKey (r : Reading) : String :=
  readingKey r ++ ":m" ++ Int.repr (effectiveMultiplier r defaultMultiplier)

/-- The loop of `index_readings`. -/
def indexNext (indexed : Dict String Reading) (r : Reading) : Dict String Reading :=
  indexed.set (if readingKey r ∈ indexed.keys then r.multiplierKey else readingKey r) r

/-- `index_readings`. -/
def indexReadings (readings : List Reading) : Dict String Reading :=
  (validReadings readings).foldl indexNext .empty

section Keys

theorem colon_not_mem_repr (code : Int) : ':' ∉ (Int.repr code).toList := by
  have digits (n : Nat) : ':' ∉ (Nat.repr n).toList := by
    intro listed
    rw [Nat.toList_repr] at listed
    exact absurd (Nat.isDigit_of_mem_toDigits (by decide) (by decide) listed) (by decide)
  cases code with
  | ofNat n => exact digits n
  | negSucc n =>
      intro listed
      rw [Int.repr, String.toList_append, List.mem_append] at listed
      rcases listed with sign | listed
      · exact absurd sign (by decide)
      · exact digits _ listed

theorem append_repr_inj {name : String} {a b : Int} :
    name ++ Int.repr a = name ++ Int.repr b ↔ a = b := by
  rw [String.append_right_inj, Int.repr_inj]

/-- Parts without a colon are read off their text. -/
theorem intercalate_inj {parts others : List String} (some_ : parts ≠ []) (some_' : others ≠ [])
    (free : ∀ p ∈ parts, ':' ∉ p.toList) (free' : ∀ p ∈ others, ':' ∉ p.toList)
    (same : ":".intercalate parts = ":".intercalate others) : parts = others := by
  have left := String.toList_split_intercalate free
  have right := String.toList_split_intercalate free'
  rw [if_neg some_] at left
  rw [if_neg some_'] at right
  rw [← left, ← right]
  exact congrArg (fun s : String => (s.split ':').toList.map (·.copy)) same

theorem colon_not_mem {name : String} {code : Int} (free : ':' ∉ name.toList) :
    ':' ∉ (name ++ Int.repr code).toList := by
  rw [String.toList_append, List.mem_append, not_or]
  exact ⟨free, colon_not_mem_repr code⟩

/-- The part for the multiplier. -/
def Reading.multiplierPart (r : Reading) : String :=
  "m" ++ Int.repr (effectiveMultiplier r defaultMultiplier)

theorem keyParts_free (r : Reading) : ∀ p ∈ r.keyParts ++ [r.multiplierPart], ':' ∉ p.toList := by
  intro p listed
  simp only [Reading.keyParts, Reading.multiplierPart, List.mem_append, List.mem_cons,
    List.not_mem_nil, or_false, Option.mem_toList, Option.map_eq_some_iff] at listed
  rcases listed with ((rfl | rfl | rfl | rfl | rfl) | ⟨flow, -, rfl⟩) | rfl
  all_goals exact colon_not_mem (by decide)

theorem multiplierKey_eq (r : Reading) :
    r.multiplierKey = ":".intercalate (r.keyParts ++ [r.multiplierPart]) := by
  have mark : ":m" = ":" ++ "m" := rfl
  rw [String.intercalate_append_of_ne_nil (by simp [Reading.keyParts]) (List.cons_ne_nil _ _),
    String.intercalate_singleton, Reading.multiplierKey, readingKey, Reading.multiplierPart, mark]
  simp only [String.append_assoc]

/-- What a key tells of a reading: all that identifies it but the multiplier. -/
theorem keyParts_inj {r r' : Reading} : r.keyParts = r'.keyParts ↔
    r.uom = r'.uom ∧ r.phase = r'.phase ∧ r.kind = r'.kind ∧
      r.dataQualifier = r'.dataQualifier ∧
      r.accumulationBehaviour = r'.accumulationBehaviour ∧
      r.flowDirection = r'.flowDirection := by
  unfold Reading.keyParts
  cases r.flowDirection <;> cases r'.flowDirection <;> simp

theorem readingKey_ne_multiplierKey (r r' : Reading) : readingKey r ≠ r'.multiplierKey := by
  intro same
  rw [multiplierKey_eq, readingKey] at same
  have parts := intercalate_inj (by simp [Reading.keyParts]) (by simp)
    (fun p listed => keyParts_free r p (List.mem_append_left _ listed)) (keyParts_free r') same
  unfold Reading.keyParts Reading.multiplierPart at parts
  have last := congrArg (fun l : List String => (l.getD 5 "").toList.head?) parts
  cases flow : r.flowDirection <;> cases flow' : r'.flowDirection <;>
    simp [flow, flow'] at parts last

theorem multiplierKey_inj {r r' : Reading} (same : r.multiplierKey = r'.multiplierKey) :
    readingIdentity r = readingIdentity r' := by
  rw [multiplierKey_eq, multiplierKey_eq] at same
  have parts := intercalate_inj (by simp) (by simp) (keyParts_free r) (keyParts_free r') same
  obtain ⟨front, last⟩ := List.append_inj' parts rfl
  obtain ⟨uom, phase, kind, qualifier, behaviour, flow⟩ := keyParts_inj.mp front
  have multiplier := append_repr_inj.mp (List.singleton_inj.mp last)
  simp only [readingIdentity, uom, phase, kind, qualifier, behaviour, flow, multiplier]

/-- Every reading is under one of its own keys. -/
def OwnKeys (indexed : Dict String Reading) : Prop :=
  ∀ e ∈ indexed.entries, e.1 = readingKey e.2 ∨ e.1 = e.2.multiplierKey

theorem indexNext_spec {indexed : Dict String Reading} {r : Reading} (own : OwnKeys indexed)
    (new : ∀ e ∈ indexed.entries, readingIdentity e.2 ≠ readingIdentity r) :
    ∃ key, (indexNext indexed r).entries = indexed.entries ++ [(key, r)] ∧
      (key = readingKey r ∨ key = r.multiplierKey) := by
  have appends {key : String} (absent : key ∉ indexed.keys) :
      (indexed.set key r).entries = indexed.entries ++ [(key, r)] :=
    Dict.setEntry_new key r indexed.entries absent
  unfold indexNext
  split
  · refine ⟨r.multiplierKey, appends fun taken => ?_, .inr rfl⟩
    obtain ⟨e, listed, key⟩ := List.mem_map.mp taken
    rcases own e listed with mine | mine
    · exact readingKey_ne_multiplierKey e.2 r (mine.symm.trans key)
    · exact new e listed (multiplierKey_inj (mine.symm.trans key))
  · rename_i absent
    exact ⟨readingKey r, appends absent, .inl rfl⟩

theorem foldl_indexNext {indexed : Dict String Reading} (readings : List Reading)
    (own : OwnKeys indexed)
    (distinct : ((indexed.entries.map Prod.snd ++ readings).map readingIdentity).Nodup) :
    (readings.foldl indexNext indexed).entries.map Prod.snd =
      indexed.entries.map Prod.snd ++ readings := by
  induction readings generalizing indexed with
  | nil => simp
  | cons r rest ih =>
      have new : ∀ e ∈ indexed.entries, readingIdentity e.2 ≠ readingIdentity r := by
        intro e listed same
        rw [List.map_append, List.nodup_append] at distinct
        exact distinct.2.2 _ (List.mem_map_of_mem (List.mem_map_of_mem listed)) _
          (List.mem_map_of_mem List.mem_cons_self) same
      obtain ⟨key, entries, mine⟩ := indexNext_spec own new
      have grown : (indexNext indexed r).entries.map Prod.snd =
          indexed.entries.map Prod.snd ++ [r] := by
        rw [entries, List.map_append]
        rfl
      rw [List.foldl_cons, ih, grown, List.append_assoc, List.singleton_append]
      · intro e listed
        rw [entries] at listed
        rcases List.mem_append.mp listed with old | new
        · exact own e old
        · rw [List.mem_singleton.mp new]
          exact mine
      · rw [grown, List.append_assoc, List.singleton_append]
        exact distinct

end Keys

/-- All the valid readings are indexed, each once and in the order the connector gave them. -/
theorem readings_indexed (readings : List Reading) :
    (indexReadings readings).entries.map Prod.snd = validReadings readings := by
  have own : OwnKeys Dict.empty := fun e listed => by cases listed
  have indexed := foldl_indexNext (validReadings readings) own
    (validFrom_nodup [] readings)
  exact indexed

/-! ### Snapshots -/

inductive Quality where
  | good | stale | commLost
  deriving DecidableEq

structure PointEntry where
  reading : Reading
  /-- When the read began. -/
  sourceTimestamp : ℚ
  quality : Quality
  deriving DecidableEq

structure DeviceSnapshot where
  entries : Dict String PointEntry
  sequence : Nat
  lastSuccess : Option ℚ
  quality : Quality
  error : Option String
  declaredReadings : Option (List ReadingIdentity)

/-- What a successful read of a connector gave, and when it began. -/
structure Acquisition where
  started : ℚ
  readings : List Reading
  declared : Option (List ReadingIdentity)

/-- The snapshot of a read that succeeded. -/
def Acquisition.snapshot (a : Acquisition) (sequence : Nat) : DeviceSnapshot where
  entries := (indexReadings a.readings).mapTo fun r => ⟨r, a.started, .good⟩
  sequence := sequence
  lastSuccess := some a.started
  quality := .good
  error := none
  declaredReadings := a.declared

/-- The snapshot of a read that failed. -/
def lostSnapshot (previous : Option DeviceSnapshot) (sequence : Nat) (error : String) :
    DeviceSnapshot where
  entries := (previous.elim .empty (·.entries)).mapTo fun e => { e with quality := .commLost }
  sequence := sequence
  lastSuccess := previous.bind (·.lastSuccess)
  quality := .commLost
  error := some error
  declaredReadings := previous.bind (·.declaredReadings)

/-! ### Reads -/

inductive Entry where
  | began (device : Lfdi)
  | answered (device : Lfdi) (outcome : Except String Acquisition) (snapshot : DeviceSnapshot)
  | released (device : Lfdi)

/-- A read under way. The time is taken when the connector is there. -/
structure Pending where
  device : Lfdi
  started : Option ℚ

/-- `DirectConnectorSource`, with the reads under way. The log has the last entry first. -/
structure Source where
  sequence : Nat := 0
  last : Dict Lfdi DeviceSnapshot := .empty
  pending : List Pending := []
  log : List Entry := []

inductive Source.Step where
  | begins (device : Lfdi)
  | starts (place : Nat) (time : ℚ)
  | returns (place : Nat) (readings : List Reading) (declared : Option (List ReadingIdentity))
  | raises (place : Nat) (error : String)
  | releases (device : Lfdi)

namespace Source

variable (s : Source)

/-- The end of a read that succeeded. -/
def succeeds (device : Lfdi) (a : Acquisition) (others : List Pending) : Source :=
  { s with
    pending := others
    last := s.last.set device (a.snapshot s.sequence)
    log := .answered device (.ok a) (a.snapshot s.sequence) :: s.log }

/-- The end of a read that failed. -/
def fails (device : Lfdi) (error : String) (others : List Pending) : Source :=
  { s with
    pending := others
    log := .answered device (.error error)
      (lostSnapshot (s.last.get? device) s.sequence error) :: s.log }

end Source

def Source.step : Source.Step → Source → Option Source
  | .begins device, s => some { s with
      sequence := s.sequence + 1
      pending := s.pending ++ [⟨device, none⟩]
      log := .began device :: s.log }
  | .starts place time, s =>
      match s.pending[place]? with
      | some ⟨device, none⟩ => some { s with pending := s.pending.set place ⟨device, some time⟩ }
      | _ => none
  | .returns place readings declared, s =>
      match s.pending[place]? with
      | some ⟨device, some started⟩ =>
          some (s.succeeds device ⟨started, readings, declared⟩ (s.pending.eraseIdx place))
      | _ => none
  | .raises place error, s =>
      match s.pending[place]? with
      | some p => some (s.fails p.device error (s.pending.eraseIdx place))
      | none => none
  | .releases device, s =>
      some { s with last := s.last.erase device, log := .released device :: s.log }

def Source.machine : Machine := ⟨Source, Source.Step, Source.step⟩

/-! ### What a metering cycle goes on with -/

/-- `_PER_LINE_PHASES`. -/
def perLinePhases : List Int := [128, 129, 64, 65, 32, 33]

/-- `_total`. -/
def total (readings : List Reading) (uom : Int) : Option ℚ :=
  (readings.find? fun r => r.uom = uom ∧ r.phase ∉ perLinePhases ∧ r.kind = 37 ∧
    r.dataQualifier = 12 ∧ (r.flowDirection = none ∨ r.flowDirection = some 4)).bind Reading.value

/-- The readings that a cycle posts, of when they are, and whether they are marked as stale. -/
structure Taken where
  readings : List Reading
  acquired : ℚ
  stale : Bool
  declared : Option (List ReadingIdentity)
  deriving DecidableEq

/-- A cycle whose device was never read successfully ends. -/
def DeviceSnapshot.taken (snapshot : DeviceSnapshot) : Option Taken :=
  snapshot.lastSuccess.map fun time =>
    ⟨snapshot.entries.entries.map (·.2.reading), time, snapshot.quality ≠ .good,
      snapshot.declaredReadings⟩

def measured? (value : Option ℚ) : Intervals.Value := value.elim .missing .float

/-- `_keep_interval`: what the interval history is told, with the offset of the server's time. -/
def Taken.keepInterval (taken : Taken) (device : Lfdi) (offset : ℚ) : Intervals.Step :=
  if taken.stale then .interrupt device
  else .observe device (taken.acquired + offset) (measured? (total taken.readings 38))
    (measured? (total taken.readings 63))

/-! ### What the answers tell -/

/-- The successful read of a device that the log ends with, since the device was last released. -/
def lastGood (device : Lfdi) : List Entry → Option Acquisition
  | [] => none
  | .began _ :: before => lastGood device before
  | .answered other (.ok a) _ :: before => if other = device then some a else lastGood device before
  | .answered _ (.error _) _ :: before => lastGood device before
  | .released other :: before => if other = device then none else lastGood device before

/-- How many reads have begun. -/
def begun : List Entry → Nat
  | [] => 0
  | .began _ :: before => begun before + 1
  | _ :: before => begun before

/-- The readings of a read, as a cycle goes on with them. -/
def Acquisition.taken (a : Acquisition) (stale : Bool) : Taken :=
  ⟨validReadings a.readings, a.started, stale, a.declared⟩

/-- What a read tells, of how it ended and of the successful one before it. -/
def told (previous : Option Acquisition) : Except String Acquisition → Option Taken
  | .ok a => some (a.taken false)
  | .error _ => previous.map (·.taken true)

/-- An answer is that of its own read or, marked as lost, that of the last successful one. -/
structure Tells (before : List Entry) (device : Lfdi) (outcome : Except String Acquisition)
    (snapshot : DeviceSnapshot) : Prop where
  taken : snapshot.taken = told (lastGood device before) outcome
  sequence : snapshot.sequence = begun before
  entries : ∀ e ∈ snapshot.entries.entries,
    e.2.quality = snapshot.quality ∧ some e.2.sourceTimestamp = snapshot.lastSuccess
  quality : snapshot.quality = .good ↔ ∃ a, outcome = .ok a

section Answers

variable {s t : Source}

/-- The snapshot that is kept of a device. -/
def Remembers (kept : Option DeviceSnapshot) (good : Option Acquisition) : Prop :=
  good.elim (kept = none) fun a => ∃ n, kept = some (a.snapshot n)

/-- What every step keeps. -/
structure Source.Sound (s : Source) : Prop where
  sequence : s.sequence = begun s.log
  last : ∀ device, Remembers (s.last.get? device) (lastGood device s.log)
  told : ∀ after before device outcome snapshot,
    s.log = after ++ .answered device outcome snapshot :: before →
      Tells before device outcome snapshot

theorem snapshot_readings (a : Acquisition) (n : Nat) :
    (a.snapshot n).entries.entries.map (·.2.reading) = validReadings a.readings := by
  rw [← readings_indexed, Acquisition.snapshot, Dict.mapTo, List.map_map]
  rfl

theorem lostSnapshot_readings (previous : DeviceSnapshot) (n : Nat) (error : String) :
    (lostSnapshot (some previous) n error).entries.entries.map (·.2.reading) =
      previous.entries.entries.map (·.2.reading) := by
  simp only [lostSnapshot, Option.elim_some, Dict.mapTo, List.map_map]
  rfl

theorem Acquisition.tells (a : Acquisition) (before : List Entry) (device : Lfdi) :
    Tells before device (.ok a) (a.snapshot (begun before)) where
  taken := by
    simp only [DeviceSnapshot.taken, snapshot_readings]
    rfl
  sequence := rfl
  entries e listed := by
    obtain ⟨old, -, rfl⟩ := List.mem_map.mp listed
    exact ⟨rfl, rfl⟩
  quality := ⟨fun _ => ⟨a, rfl⟩, fun _ => rfl⟩

theorem lostSnapshot_tells {kept : Option DeviceSnapshot} {before : List Entry} {device : Lfdi}
    (remembers : Remembers kept (lastGood device before)) (error : String) :
    Tells before device (.error error) (lostSnapshot kept (begun before) error) := by
  have other : (lostSnapshot kept (begun before) error).quality = .good ↔
      ∃ a, (Except.error error : Except String Acquisition) = .ok a := by
    simp [lostSnapshot]
  cases good : lastGood device before with
  | none =>
      rw [good] at remembers
      obtain rfl : kept = none := remembers
      refine ⟨?_, rfl, ?_, other⟩
      · rw [good]
        rfl
      · intro e listed
        cases listed
  | some a =>
      rw [good] at remembers
      obtain ⟨n, rfl⟩ := remembers
      refine ⟨?_, rfl, ?_, other⟩
      · simp only [DeviceSnapshot.taken, lostSnapshot_readings, snapshot_readings, good]
        rfl
      · intro e listed
        obtain ⟨old, there, rfl⟩ := List.mem_map.mp listed
        exact ⟨rfl, ((a.tells before device).entries old there).2⟩

theorem Source.sound_fresh : ({} : Source).Sound where
  sequence := rfl
  last _ := rfl
  told after before device outcome snapshot log := by simp at log

/-- An entry more: what was told stays, and an answer is told now. -/
theorem Source.Sound.logs (sound : s.Sound) {entry : Entry} (log : t.log = entry :: s.log)
    (sequence : t.sequence = begun t.log)
    (last : ∀ device, Remembers (t.last.get? device) (lastGood device t.log))
    (tells : ∀ device outcome snapshot, entry = .answered device outcome snapshot →
      Tells s.log device outcome snapshot) : t.Sound := by
  refine ⟨sequence, last, fun after before device outcome snapshot whole => ?_⟩
  rw [log] at whole
  cases after with
  | nil =>
      obtain ⟨same, rfl⟩ := List.cons.inj whole
      exact tells device outcome snapshot same
  | cons first after =>
      obtain ⟨-, later⟩ := List.cons.inj whole
      exact sound.told after before device outcome snapshot later

theorem Source.Sound.succeeds (sound : s.Sound) (device : Lfdi) (a : Acquisition)
    (others : List Pending) : (s.succeeds device a others).Sound := by
  refine sound.logs rfl sound.sequence (fun other => ?_) (fun _ _ _ same => ?_)
  · simp only [Source.succeeds, Dict.get?_set, lastGood]
    by_cases here : device = other
    · subst here
      simp only [if_true]
      exact ⟨s.sequence, rfl⟩
    · rw [if_neg (Ne.symm here), if_neg here]
      exact sound.last other
  · cases same
    rw [sound.sequence]
    exact a.tells s.log device

theorem Source.Sound.fails (sound : s.Sound) (device : Lfdi) (error : String)
    (others : List Pending) : (s.fails device error others).Sound := by
  refine sound.logs rfl sound.sequence (fun other => sound.last other) (fun _ _ _ same => ?_)
  cases same
  rw [sound.sequence]
  exact lostSnapshot_tells (sound.last device) error

theorem Source.Sound.step (sound : s.Sound) {l : Source.Step} (stepped : Source.step l s = some t) :
    t.Sound := by
  cases l with
  | begins device =>
      cases stepped
      refine sound.logs rfl ?_ (fun other => sound.last other) (fun _ _ _ same => by cases same)
      exact congrArg (· + 1) sound.sequence
  | starts place time =>
      simp only [Source.step] at stepped
      split at stepped
      · cases stepped
        exact { sound with }
      · cases stepped
  | returns place readings declared =>
      simp only [Source.step] at stepped
      split at stepped
      · cases stepped
        exact sound.succeeds _ _ _
      · cases stepped
  | raises place error =>
      simp only [Source.step] at stepped
      split at stepped
      · cases stepped
        exact sound.fails _ _ _
      · cases stepped
  | releases device =>
      cases stepped
      refine sound.logs rfl sound.sequence (fun other => ?_) (fun _ _ _ same => by cases same)
      simp only [Dict.get?_erase, lastGood]
      by_cases here : device = other
      · subst here
        simp only [if_true]
        rfl
      · rw [if_neg (Ne.symm here), if_neg here]
        exact sound.last other

end Answers

/-- Whatever reads overlap, an answer is that of its own read, with all the valid readings and the
time it began, or, where it failed, it has the readings and the time of the last successful read of
that device, marked as lost, and a cycle then marks them as stale. Its number is that of the reads
begun so far. -/
theorem answers_tell {s : Source} (reached : Source.machine.Run Machine.Free {} s)
    {after before : List Entry} {device : Lfdi} {outcome : Except String Acquisition}
    {snapshot : DeviceSnapshot}
    (logged : s.log = after ++ .answered device outcome snapshot :: before) :
    Tells before device outcome snapshot := by
  have sound : s.Sound := Machine.Run.keeps (P := Source.Sound)
    (fun _ _ _ stepped _ sound => sound.step stepped) reached Source.sound_fresh
  exact sound.told after before device outcome snapshot logged

/-! ### A device that is lost -/

def lostReading : Reading := { uom := 38, value := some 500 }

/-- A read of another device overlaps the first one, and the second one fails. -/
def losing : List Source.Step :=
  [.begins "ab", .begins "cd", .starts 0 100, .returns 0 [lostReading] none, .begins "ab",
    .raises 1 "no route to host"]

def losingLog : List Entry :=
  [.began "ab", .answered "ab" (.ok ⟨100, [lostReading], none⟩)
    (Acquisition.snapshot ⟨100, [lostReading], none⟩ 2), .began "cd", .began "ab"]

theorem source_loses : ∃ s snapshot, Source.machine.Run Machine.Free {} s ∧
    s.log = .answered "ab" (.error "no route to host") snapshot :: losingLog :=
  ⟨_, _, Machine.run_of_exec (M := Source.machine) losing rfl, rfl⟩

/-- The value of the first read is posted again, as it was, and marked as stale. -/
theorem answers_tell_lost : ∃ snapshot, Tells losingLog "ab" (.error "no route to host") snapshot ∧
    snapshot.taken = some ⟨[lostReading], 100, true, none⟩ := by
  obtain ⟨s, snapshot, reached, log⟩ := source_loses
  have logged : s.log = [] ++ .answered "ab" (.error "no route to host") snapshot :: losingLog := log
  have tells := answers_tell reached logged
  refine ⟨snapshot, tells, tells.taken.trans ?_⟩
  decide +kernel

/-! ### What the interval history is told -/

/-- What the interval history is told of a device, the last first. The offset of the server's time
may be another in each cycle. -/
def keptSteps (device : Lfdi) (offset : List Entry → ℚ) : List Entry → List Intervals.Step
  | [] => []
  | .answered other _ snapshot :: before =>
      if other = device then
        (snapshot.taken.map (·.keepInterval device (offset before))).toList ++
          keptSteps device offset before
      else keptSteps device offset before
  | _ :: before => keptSteps device offset before

/-- What is to be integrated. -/
def observedAt : Intervals.Step → Option (ℚ × Intervals.Value × Intervals.Value)
  | .observe _ time w var => some (time, w, var)
  | _ => none

/-- The totals of the successful reads of a device, the last first. -/
def goodReads (device : Lfdi) (offset : List Entry → ℚ) :
    List Entry → List (ℚ × Intervals.Value × Intervals.Value)
  | [] => []
  | .answered other (.ok a) _ :: before =>
      if other = device then
        (a.started + offset before, measured? (total (validReadings a.readings) 38),
          measured? (total (validReadings a.readings) 63)) :: goodReads device offset before
      else goodReads device offset before
  | .answered _ (.error _) _ :: before => goodReads device offset before
  | .began _ :: before => goodReads device offset before
  | .released _ :: before => goodReads device offset before

/-- In every run the interval history is told to integrate each successful read of a device once, in
the order they ended, with the time it began, and nothing else. -/
theorem observed_once {s : Source} (reached : Source.machine.Run Machine.Free {} s) (device : Lfdi)
    (offset : List Entry → ℚ) :
    (keptSteps device offset s.log).filterMap observedAt = goodReads device offset s.log := by
  have sound : s.Sound := Machine.Run.keeps (P := Source.Sound)
    (fun _ _ _ stepped _ sound => sound.step stepped) reached Source.sound_fresh
  have each : ∀ log after, s.log = after ++ log →
      (keptSteps device offset log).filterMap observedAt = goodReads device offset log := by
    intro log
    induction log with
    | nil => exact fun _ _ => rfl
    | cons entry before ih =>
        intro after whole
        have later := ih (after ++ [entry]) (by rw [whole, List.append_assoc]; rfl)
        cases entry with
        | began other => exact later
        | released other => exact later
        | answered other outcome snapshot =>
            have taken := (sound.told after before other outcome snapshot whole).taken
            cases outcome with
            | ok a =>
                rw [keptSteps, goodReads]
                split
                · rw [taken, List.filterMap_append, later]
                  rfl
                · exact later
            | error e =>
                rw [keptSteps, goodReads]
                split
                · rw [taken, List.filterMap_append, later]
                  cases lastGood other before <;> rfl
                · exact later
  exact each s.log [] rfl

theorem observed_once_lost : ∃ s : Source,
    (keptSteps "ab" (fun log => log.length) s.log).filterMap observedAt =
      [(102, .float 500, .missing)] := by
  obtain ⟨s, snapshot, reached, log⟩ := source_loses
  refine ⟨s, (observed_once reached "ab" fun log => log.length).trans ?_⟩
  rw [log]
  have shifted : (100 : ℚ) + ([Entry.began "cd", .began "ab"].length : ℕ) = 102 := by norm_num
  rw [← shifted]
  rfl

end Py20305.Telemetry
