import Py20305.Telemetry.Manager

/-!
Alarms and their returns to normal are reported in turn.

Between two LogEvents the baseline of the device is what the server was told last, and the
counter is the number of LogEvents it was told (`Agrees`). A cycle that posts LogEvents has
the bits left to post in which the baseline and the bitmap differ (`Todo`).
-/

namespace Py20305.Telemetry

/-! ### What the server was told -/

/-- Whether a LogEvent for the bit is the alarm, or its return to normal. -/
def LogEvent.alarmFor (bit : Nat) (e : LogEvent) : Option Bool :=
  if e.logEventCode / 2 = bit then some (e.logEventCode % 2 == 0) else none

/-- The LogEvents for a bit. -/
def alarmsOf (bit : Nat) (events : List LogEvent) : List Bool :=
  events.filterMap (LogEvent.alarmFor bit)

/-- The alarm is on, by the last LogEvent for it. -/
def said (bit : Nat) (events : List LogEvent) : Bool :=
  (alarmsOf bit events).getLast?.getD false

/-- Alarms and returns to normal in turn, an alarm first. -/
def InTurn (alarms : List Bool) : Prop :=
  alarms.head? ≠ some false ∧ alarms.IsChain (· ≠ ·)

theorem InTurn.concat {alarms : List Bool} {on : Bool} (inTurn : InTurn alarms)
    (turned : on ≠ alarms.getLast?.getD false) : InTurn (alarms ++ [on]) := by
  obtain ⟨starts, chain⟩ := inTurn
  cases alarms with
  | nil =>
      have on_true : on = true := by simpa using turned
      subst on_true
      exact ⟨by simp, List.isChain_singleton true⟩
  | cons first rest =>
      refine ⟨by simpa using starts, ?_⟩
      rw [List.isChain_append]
      refine ⟨chain, List.isChain_singleton on, ?_⟩
      intro x last y only
      simp only [List.head?_cons, Option.mem_def, Option.some.injEq] at only
      subst only
      rw [Option.mem_def] at last
      rw [last, Option.getD_some] at turned
      exact turned.symm

/-- What holds of the LogEvents the server accepted. -/
structure Told (events : List LogEvent) : Prop where
  inTurn : ∀ bit < derAlarmNames.length, InTurn (alarmsOf bit events)
  ids : events.map LogEvent.logEventID = List.range events.length

/-- The state of a device agrees with what the server was told. -/
structure Agrees (d : DeviceTelemetryState) (events : List LogEvent) : Prop where
  baseline : ∀ bit < derAlarmNames.length, d.lastAlarmStatus.testBit bit = said bit events
  counter : d.logEventIdCounter = events.length

/-- The LogEvents left to post are the bits in which the baseline and the bitmap differ. -/
structure Todo (d : DeviceTelemetryState) (alarm : Nat) (todo : List (Nat × Nat)) : Prop where
  distinct : (todo.map Prod.fst).Nodup
  differ : ∀ bit < derAlarmNames.length,
    bit ∈ todo.map Prod.fst ↔ d.lastAlarmStatus.testBit bit ≠ alarm.testBit bit
  codes : ∀ p ∈ todo, p.1 < derAlarmNames.length ∧
    p.2 = alarmLogEventCode p.1 !alarm.testBit p.1

theorem alarmFor_code (bit other id : Nat) (off : Bool) (details : Option String) (now : Int) :
    (createLogEvent (alarmLogEventCode bit off) id details now).alarmFor other =
      if bit = other then some !off else none := by
  have half : (2 * bit + if off = true then 1 else 0) / 2 = bit := by
    cases off
    · simp
    · simp
      omega
  have parity : (2 * bit + if off = true then 1 else 0) % 2 = if off = true then 1 else 0 := by
    cases off
    · simp
    · simp
  simp only [LogEvent.alarmFor, createLogEvent, alarmLogEventCode, half, parity]
  cases off <;> rfl

theorem alarmsOf_concat (bit : Nat) (events : List LogEvent) (e : LogEvent) :
    alarmsOf bit (events ++ [e]) = alarmsOf bit events ++ (e.alarmFor bit).toList := by
  rw [alarmsOf, List.filterMap_append]
  cases found : e.alarmFor bit with
  | none => simp [alarmsOf, found]
  | some on => simp [alarmsOf, found]

/-- The server accepts the LogEvent of a bit that differs. -/
theorem Told.concat {events : List LogEvent} {d : DeviceTelemetryState} {alarm bit code : Nat}
    {rest : List (Nat × Nat)} (told : Told events) (agrees : Agrees d events)
    (todo : Todo d alarm ((bit, code) :: rest)) {e : LogEvent}
    (event : ∃ details now, e = createLogEvent code d.logEventIdCounter details now) :
    Told (events ++ [e]) ∧
      ∀ b < derAlarmNames.length, said b (events ++ [e]) =
        if b = bit then alarm.testBit bit else said b events := by
  obtain ⟨details, now, rfl⟩ := event
  obtain ⟨bit_lt, code_eq⟩ := todo.codes _ List.mem_cons_self
  simp only at bit_lt code_eq
  subst code_eq
  have alarms : ∀ b, alarmsOf b (events ++
      [createLogEvent (alarmLogEventCode bit !alarm.testBit bit) d.logEventIdCounter details now]) =
        alarmsOf b events ++ if bit = b then [alarm.testBit bit] else [] := by
    intro b
    rw [alarmsOf_concat, alarmFor_code]
    by_cases same : bit = b
    · simp [same]
    · simp [same]
  have differs := (todo.differ bit bit_lt).mp List.mem_cons_self
  constructor
  · constructor
    · intro b b_lt
      rw [alarms]
      by_cases same : bit = b
      · subst same
        rw [if_pos rfl]
        apply (told.inTurn bit bit_lt).concat
        intro again
        apply differs
        rw [agrees.baseline bit bit_lt, said, again]
      · rw [if_neg same, List.append_nil]
        exact told.inTurn b b_lt
    · rw [List.map_append, told.ids, List.length_append, List.length_singleton, List.range_succ]
      simp [createLogEvent, agrees.counter]
  · intro b _
    rw [said, alarms]
    by_cases same : bit = b
    · subst same
      simp
    · have other : b ≠ bit := fun h => same h.symm
      rw [if_neg same, List.append_nil, if_neg other, said]

/-! ### Bitmaps -/

theorem testBit_mappedAlarmMask (bit : Nat) :
    mappedAlarmMask.testBit bit = decide (bit < derAlarmNames.length) :=
  Nat.testBit_two_pow_sub_one _ _

/-- Taking over the bits without a code leaves the others. -/
theorem testBit_synced (last alarm : Nat) {bit : Nat} (mapped : bit < derAlarmNames.length) :
    ((last &&& mappedAlarmMask) ||| Nat.ldiff alarm mappedAlarmMask).testBit bit =
      last.testBit bit := by
  rw [Nat.testBit_or, Nat.testBit_and, Nat.testBit_ldiff, testBit_mappedAlarmMask]
  simp [mapped]

/-- The baseline after a LogEvent has the bit of the bitmap. -/
theorem testBit_advanced (last alarm bit b : Nat) :
    (if alarm.testBit bit then last ||| 2 ^ bit else Nat.ldiff last (2 ^ bit)).testBit b =
      if b = bit then alarm.testBit bit else last.testBit b := by
  by_cases same : b = bit
  · subst same
    cases on : alarm.testBit b with
    | true => simp [Nat.testBit_or, Nat.testBit_two_pow_self]
    | false => simp [Nat.testBit_ldiff, Nat.testBit_two_pow_self]
  · have other : (2 ^ bit).testBit b = false := Nat.testBit_two_pow_of_ne fun h => same h.symm
    cases on : alarm.testBit bit with
    | true => simp [Nat.testBit_or, other, same]
    | false => simp [Nat.testBit_ldiff, other, same]

theorem todo_alarmBits {d : DeviceTelemetryState} {previous alarm : Nat}
    (same : ∀ bit < derAlarmNames.length, d.lastAlarmStatus.testBit bit = previous.testBit bit) :
    Todo d alarm (alarmBitsToLogEvents previous alarm) := by
  have bits : (alarmBitsToLogEvents previous alarm).map Prod.fst =
      (List.range derAlarmNames.length).filter fun bit => (previous ^^^ alarm).testBit bit := by
    rw [alarmBitsToLogEvents, List.map_map]
    exact List.map_id _
  constructor
  · rw [bits]
    exact List.nodup_range.filter _
  · intro bit bit_lt
    rw [bits, List.mem_filter, List.mem_range, Nat.testBit_xor, same bit bit_lt]
    simp [bit_lt]
  · intro p listed
    obtain ⟨bit, in_range, rfl⟩ := List.mem_map.mp listed
    exact ⟨List.mem_range.mp (List.mem_of_mem_filter in_range), rfl⟩

/-- The baseline has the bit the server was told: one LogEvent less is left. -/
theorem Todo.advance {d d' : DeviceTelemetryState} {alarm bit code : Nat}
    {rest : List (Nat × Nat)} (todo : Todo d alarm ((bit, code) :: rest))
    (baseline : ∀ b, d'.lastAlarmStatus.testBit b =
      if b = bit then alarm.testBit bit else d.lastAlarmStatus.testBit b) : Todo d' alarm rest := by
  have distinct := todo.distinct
  rw [List.map_cons, List.nodup_cons] at distinct
  constructor
  · exact distinct.2
  · intro b b_lt
    rw [baseline]
    by_cases same : b = bit
    · subst same
      simpa using distinct.1
    · rw [if_neg same, ← todo.differ b b_lt]
      simp [same]
  · intro p listed
    exact todo.codes p (List.mem_cons_of_mem _ listed)

/-! ### Steps -/

/-- The server accepted the LogEvent the cycle waits for. -/
def World.eventAccepted (w : World) : Bool :=
  match w.cycle with
  | some (.alarming _ _ _ _ accepted) => accepted
  | _ => false

/-- The LogEvent a cycle waits for, and those that come after it. -/
structure Alarming (d : DeviceTelemetryState) (events : List LogEvent) (alarm bit : Nat)
    (rest : List (Nat × Nat)) (event : LogEvent) (accepted : Bool) : Prop where
  before : ∃ before, events = before ++ (if accepted then [event] else []) ∧ Told before ∧
    Agrees d before
  todo : ∃ code details now, Todo d alarm ((bit, code) :: rest) ∧
    event = createLogEvent code d.logEventIdCounter details now

/-- What holds of the manager in one process. -/
structure Reporting (w : World) : Prop where
  told : Told w.events
  unknown : w.device = none → w.events = [] ∧ w.cycle = none
  agrees : ∀ d, w.device = some d → w.eventAccepted = false → Agrees d w.events
  alarming : ∀ d alarm bit rest event accepted, w.device = some d →
    w.cycle = some (.alarming alarm bit rest event accepted) →
    Alarming d w.events alarm bit rest event accepted

/-- No LogEvent is posted. -/
def World.quiet (w : World) : Bool :=
  match w.cycle with
  | some (.alarming _ _ _ _ _) => false
  | _ => true

theorem Reporting.of_quiet {w : World} {d : DeviceTelemetryState} (told : Told w.events)
    (device : w.device = some d) (agrees : Agrees d w.events) (quiet : w.quiet = true) :
    Reporting w where
  told := told
  unknown absent := by
    rw [device] at absent
    cases absent
  agrees d' device' _ := by
    rw [device, Option.some.injEq] at device'
    exact device' ▸ agrees
  alarming d' alarm bit rest event accepted _ cycle := by
    rw [World.quiet, cycle] at quiet
    cases quiet

theorem Agrees.congr {d d' : DeviceTelemetryState} {events : List LogEvent}
    (agrees : Agrees d events) (last : d'.lastAlarmStatus = d.lastAlarmStatus)
    (counter : d'.logEventIdCounter = d.logEventIdCounter) : Agrees d' events where
  baseline bit bit_lt := by
    rw [last]
    exact agrees.baseline bit bit_lt
  counter := counter.trans agrees.counter

/-- The next LogEvent is posted, or the cycle ends and the bitmap was told. -/
theorem Reporting.of_nextEvent {w : World} {d : DeviceTelemetryState} {alarm : Nat} {now : Int}
    {todo : List (Nat × Nat)} (told : Told w.events) (device : w.device = some d)
    (agrees : Agrees d w.events) (left : Todo d alarm todo)
    (cycle : w.cycle = nextEvent d alarm now todo) :
    Reporting w ∧ (w.cycle = none →
      ∀ bit < derAlarmNames.length, said bit w.events = alarm.testBit bit) := by
  cases todo with
  | nil =>
      refine ⟨.of_quiet told device agrees (by rw [World.quiet, cycle, nextEvent]), ?_⟩
      intro _ bit bit_lt
      have none_left := left.differ bit bit_lt
      rw [← agrees.baseline bit bit_lt]
      simpa using none_left
  | cons p rest =>
      obtain ⟨bit, code⟩ := p
      rw [nextEvent] at cycle
      refine ⟨?_, fun ended => by rw [cycle] at ended; cases ended⟩
      constructor
      · exact told
      · intro absent
        rw [device] at absent
        cases absent
      · intro d' device' _
        rw [device, Option.some.injEq] at device'
        exact device' ▸ agrees
      · intro d' alarm' bit' rest' event accepted device' cycle'
        rw [device, Option.some.injEq] at device'
        rw [cycle] at cycle'
        cases device'
        cases cycle'
        exact ⟨⟨w.events, by simp, told, agrees⟩, code, _, now, left, rfl⟩

/-- A state that exists keeps its baseline, and its counter where its MUP is posted. -/
theorem startMetering_agrees {d : DeviceTelemetryState} {events : List LogEvent}
    (agrees : Agrees d events) (kept : d.mupPosted = true ∨ d.logEventIdCounter = 0)
    (restored : Registered) (role : DeviceRole) (href : Option Href) :
    Agrees (startMetering (some d) restored role href) events := by
  have carried : Agrees (carriedOver (some d) role href) events := by
    simp only [carriedOver]
    split
    · exact agrees.congr rfl rfl
    · rename_i lost
      exact agrees.congr rfl (kept.resolve_left lost).symm
  simp only [startMetering]
  split
  · exact carried.congr rfl rfl
  · exact carried

theorem afterReadings_quiet (w : World) (d : DeviceTelemetryState) :
    (w.afterReadings d).quiet = true := by
  unfold World.afterReadings
  split <;> rfl

theorem Reporting.afterReadings {w : World} {d d' : DeviceTelemetryState} (told : Told w.events)
    (agrees : Agrees d w.events) (last : d'.lastAlarmStatus = d.lastAlarmStatus)
    (counter : d'.logEventIdCounter = d.logEventIdCounter) : Reporting (w.afterReadings d') := by
  have events : (w.afterReadings d').events = w.events := by
    unfold World.afterReadings
    split <;> rfl
  have device : (w.afterReadings d').device = some d' := by
    unfold World.afterReadings
    split <;> rfl
  refine .of_quiet (events ▸ told) device ?_ (afterReadings_quiet w d')
  rw [events]
  exact agrees.congr last counter

theorem readingsFailed_keeps (d : DeviceTelemetryState) (status : Option Nat) :
    (readingsFailed d status).lastAlarmStatus = d.lastAlarmStatus ∧
      (readingsFailed d status).logEventIdCounter = d.logEventIdCounter := by
  unfold readingsFailed
  split
  · exact ⟨rfl, rfl⟩
  · split <;> exact ⟨rfl, rfl⟩

/-- The MUP POST of a cycle returns. -/
theorem Reporting.mupPosted {w : World} {d : DeviceTelemetryState} (told : Told w.events)
    (agrees : Agrees d w.events) (plan : Registered)
    (declared : Option (List ReadingIdentity)) : Reporting (w.mupPosted d plan declared) := by
  unfold World.mupPosted
  simp only
  split
  · exact .of_quiet told rfl (agrees.congr rfl rfl) rfl
  · exact .afterReadings told agrees rfl rfl

theorem Reporting.mupFailed {w : World} {d : DeviceTelemetryState} (told : Told w.events)
    (agrees : Agrees d w.events) (plan : Registered) (status : Option Nat) :
    Reporting (w.mupFailed d plan status) := by
  unfold World.mupFailed
  split
  · refine .of_quiet told rfl ?_ rfl
    split
    · exact agrees.congr rfl rfl
    · exact agrees
  · split
    · exact .afterReadings told agrees rfl rfl
    · exact .afterReadings told agrees rfl rfl

/-- The status was read: the LogEvents are those of the bits that differ. -/
theorem Reporting.statusRead {w : World} {d : DeviceTelemetryState} (told : Told w.events)
    (agrees : Agrees d w.events) (alarm : Nat) (now : Int) :
    Reporting (w.statusRead d alarm now) ∧ ((w.statusRead d alarm now).cycle = none →
      ∀ bit < derAlarmNames.length, said bit w.events = alarm.testBit bit) := by
  refine Reporting.of_nextEvent told rfl ?_ (todo_alarmBits fun bit bit_lt => testBit_synced _ _ bit_lt) rfl
  constructor
  · intro bit bit_lt
    rw [testBit_synced _ _ bit_lt]
    exact agrees.baseline bit bit_lt
  · exact agrees.counter

/-- A LogEvent that the server accepted returns. -/
theorem Reporting.logged {w : World} {d : DeviceTelemetryState} {alarm bit : Nat}
    {rest : List (Nat × Nat)} {event : LogEvent} (told : Told w.events)
    (alarming : Alarming d w.events alarm bit rest event true) (now : Int) :
    Reporting (w.logged d alarm bit rest now) ∧ ((w.logged d alarm bit rest now).cycle = none →
      ∀ b < derAlarmNames.length, said b w.events = alarm.testBit b) := by
  obtain ⟨⟨before, events, told_before, agrees⟩, code, details, created, todo, posted⟩ := alarming
  rw [if_pos rfl] at events
  obtain ⟨_, said_eq⟩ := told_before.concat agrees todo ⟨details, created, posted⟩
  refine Reporting.of_nextEvent told rfl ?_ (todo.advance fun b => testBit_advanced _ _ _ b) rfl
  constructor
  · intro b b_lt
    change _ = said b w.events
    rw [testBit_advanced, events, said_eq b b_lt, agrees.baseline b b_lt]
  · change d.logEventIdCounter + 1 = w.events.length
    rw [events, List.length_append, agrees.counter]
    rfl

/-- The server accepts what the cycle posted. -/
theorem Reporting.accept {w w' : World} (reporting : Reporting w)
    (accepted : w.accept = some w') : Reporting w' := by
  obtain ⟨told, unknown, agrees, alarming⟩ := reporting
  unfold World.accept at accepted
  split at accepted
  · rename_i plan declared waiting
    cases accepted
    constructor
    · exact told
    · intro absent
      obtain ⟨_, idle⟩ := unknown absent
      rw [waiting] at idle
      cases idle
    · intro d device _
      exact agrees d device (by rw [World.eventAccepted, waiting])
    · rintro d alarm bit rest event accepted _ ⟨⟩
  · rename_i alarm bit rest event waiting
    cases accepted
    cases known : w.device with
    | none =>
        obtain ⟨_, idle⟩ := unknown known
        rw [waiting] at idle
        cases idle
    | some d =>
        obtain ⟨⟨before, events, told_before, agrees_before⟩, code, details, created, todo,
          posted⟩ := alarming d alarm bit rest event false known waiting
        simp only [Bool.false_eq_true, if_false, List.append_nil] at events
        subst events
        constructor
        · exact (told_before.concat agrees_before todo ⟨details, created, posted⟩).1
        · rintro ⟨⟩
        · rintro d' _ ⟨⟩
        · rintro d' alarm' bit' rest' event' accepted' ⟨⟩ ⟨⟩
          exact ⟨⟨w.events, rfl, told_before, agrees_before⟩, code, details, created, todo, posted⟩
  · cases accepted

/-- What a LogEvent POST the server accepted, and a LogEvent counter, must not meet: a
cancelled or failed cycle, and a device whose MUP is to be posted again. -/
def answered (w : World) : Step → Bool
  | .start _ _ =>
      !w.eventAccepted && w.device.all fun d => d.mupPosted || d.logEventIdCounter == 0
  | .failed _ => !w.eventAccepted
  | .restart => false
  | _ => true

/-- The bitmap the connector reported in the cycle, where the step goes on with its
LogEvents without a failure. -/
def reportedIn (w : World) : Step → Option Nat
  | .statusRead alarm _ => some alarm
  | .returned _ =>
      match w.cycle with
      | some (.alarming alarm _ _ _ _) => some alarm
      | _ => none
  | _ => none

theorem Reporting.step {s : Scheme} {w w' : World} {l : Step} (reporting : Reporting w)
    (stepped : w.step s l = some w') (fine : answered w l = true) :
    Reporting w' ∧ ∀ alarm, reportedIn w l = some alarm → w'.cycle = none →
      ∀ bit < derAlarmNames.length, said bit w'.events = alarm.testBit bit := by
  obtain ⟨told, unknown, agrees, alarming⟩ := reporting
  cases l with
  | start role href =>
      cases stepped
      simp only [answered, Bool.and_eq_true, Bool.not_eq_true'] at fine
      obtain ⟨quiet, kept⟩ := fine
      refine ⟨.of_quiet told rfl ?_ rfl, by rintro _ ⟨⟩⟩
      cases known : w.device with
      | none =>
          obtain ⟨none_told, _⟩ := unknown known
          rw [none_told]
          have new : Agrees (carriedOver none role href) [] :=
            ⟨fun bit _ => by simp [carriedOver, said, alarmsOf], rfl⟩
          simp only [startMetering]
          split
          · exact new.congr rfl rfl
          · exact new
      | some d =>
          rw [known, Option.all_some, Bool.or_eq_true, beq_iff_eq] at kept
          exact startMetering_agrees (agrees d known quiet) kept _ _ _
  | begin =>
      simp only [World.step] at stepped
      split at stepped
      · rename_i d known idle
        split at stepped
        · cases stepped
        · cases stepped
          exact ⟨.of_quiet told known (agrees d known (by rw [World.eventAccepted, idle])) rfl,
            by rintro _ ⟨⟩⟩
      · cases stepped
  | acquired readings declared =>
      simp only [World.step] at stepped
      split at stepped
      · rename_i d known waiting
        cases stepped
        have agrees := agrees d known (by rw [World.eventAccepted, waiting])
        refine ⟨?_, by rintro _ ⟨⟩⟩
        unfold World.acquired
        split
        · split
          · exact .of_quiet told known agrees rfl
          · exact .of_quiet told known agrees rfl
        · exact .of_quiet told known agrees rfl
      · cases stepped
  | accept =>
      exact ⟨Reporting.accept ⟨told, unknown, agrees, alarming⟩ stepped, by rintro _ ⟨⟩⟩
  | returned now =>
      simp only [World.step] at stepped
      split at stepped
      · rename_i d plan declared known waiting
        cases stepped
        refine ⟨.mupPosted told (agrees d known (by rw [World.eventAccepted, waiting])) _ _, ?_⟩
        intro alarm reported
        simp only [reportedIn, waiting] at reported
        cases reported
      · rename_i d known waiting
        cases stepped
        refine ⟨.afterReadings told (agrees d known (by rw [World.eventAccepted, waiting])) rfl rfl,
          ?_⟩
        intro alarm reported
        simp only [reportedIn, waiting] at reported
        cases reported
      · rename_i d alarm bit rest event known waiting
        cases stepped
        obtain ⟨reporting, all_told⟩ :=
          Reporting.logged told (alarming d alarm bit rest event true known waiting) now
        refine ⟨reporting, ?_⟩
        intro alarm' reported
        simp only [reportedIn, waiting, Option.some.injEq] at reported
        exact reported ▸ all_told
      · cases stepped
  | statusRead alarm now =>
      simp only [World.step] at stepped
      split at stepped
      · rename_i d known waiting
        cases stepped
        obtain ⟨reporting, all_told⟩ :=
          Reporting.statusRead told (agrees d known (by rw [World.eventAccepted, waiting])) alarm now
        refine ⟨reporting, ?_⟩
        rintro _ ⟨⟩
        exact all_told
      · cases stepped
  | failed status =>
      simp only [World.step] at stepped
      simp only [answered, Bool.not_eq_true'] at fine
      split at stepped
      · rename_i d waiting known cycle
        cases stepped
        have agrees := agrees d known fine
        refine ⟨?_, by rintro _ ⟨⟩⟩
        cases waiting with
        | acquiring => exact .of_quiet told known agrees rfl
        | registering plan declared accepted => exact .mupFailed told agrees plan status
        | posting =>
            obtain ⟨last, counter⟩ := readingsFailed_keeps d status
            exact .afterReadings told agrees last counter
        | status => exact .of_quiet told known agrees rfl
        | alarming alarm bit rest event accepted => exact .of_quiet told known agrees rfl
      · cases stepped
  | checkpoint =>
      cases stepped
      exact ⟨⟨told, unknown, agrees, alarming⟩, by rintro _ ⟨⟩⟩
  | restart => cases fine

theorem Reporting.fresh : Reporting World.fresh := by
  have nothing : Told [] := by
    constructor
    · intro bit _
      exact ⟨nofun, List.isChain_nil⟩
    · rfl
  constructor
  · exact nothing
  · exact fun _ => ⟨rfl, rfl⟩
  · rintro d ⟨⟩
  · rintro d alarm bit rest event accepted ⟨⟩

/-- In every run of metering cycles in which no LogEvent POST that the server accepted is
cancelled or fails, and `start_metering` finds the MUP posted unless no LogEvent was told:
the LogEvents of a bit are its alarms and returns to normal in turn, an alarm first; their
IDs are distinct, and less than their number; and where a cycle ends without a failure the
last LogEvent of each bit is what the connector reported. -/
theorem alarms_in_turn (s : Scheme) {w : World}
    (run : (manager s).Run (fun w l _ => answered w l = true) World.fresh w) :
    (∀ bit < derAlarmNames.length, InTurn (alarmsOf bit w.events)) ∧
      (w.events.map LogEvent.logEventID).Nodup ∧
      (∀ e ∈ w.events, e.logEventID < w.events.length) ∧
      ∀ l w' alarm, w.step s l = some w' → answered w l = true → reportedIn w l = some alarm →
        w'.cycle = none → ∀ bit < derAlarmNames.length, said bit w'.events = alarm.testBit bit := by
  have reporting : Reporting w :=
    run.keeps (fun l t u stepped fine reporting => (reporting.step stepped fine).1) Reporting.fresh
  obtain ⟨in_turn, ids⟩ := reporting.told
  refine ⟨in_turn, ?_, ?_, ?_⟩
  · rw [ids]
    exact List.nodup_range
  · intro e listed
    rw [← List.mem_range, ← ids]
    exact List.mem_map_of_mem listed
  · intro l w' alarm stepped fine reported ended
    exact (reporting.step stepped fine).2 alarm reported ended

/-- A started device whose MUP is posted. -/
def registered : List Step := registering [] (some "/lel")

/-- A cycle up to its LogEvents. -/
def reading : List Step := [.begin, .acquired [] none, .returned 0]

/-- An alarm, and its return to normal after a POST that failed. -/
def alarmOnOff : List Step :=
  registered ++ [.statusRead 5 0, .accept, .returned 0, .failed none] ++
    reading ++ [.statusRead 5 0, .accept, .returned 0, .start .der (some "/lel")] ++
    reading ++ [.statusRead 4 0, .accept]

theorem alarms_in_turn_onOff : ∃ w,
    (manager someScheme).Run (fun w l _ => answered w l = true) World.fresh w ∧
      alarmsOf 0 w.events = [true, false] ∧ (w.events.map LogEvent.logEventID).Nodup ∧
      ∃ w', w.step someScheme (.returned 0) = some w' ∧
        ∀ bit < derAlarmNames.length, said bit w'.events = (4 : Nat).testBit bit := by
  have told : ((manager someScheme).execMeeting (fun w l _ => answered w l = true) World.fresh
      alarmOnOff).map (fun w => (alarmsOf 0 (World.events w),
        (World.step someScheme w (.returned 0)).map fun w' => w'.cycle.isSome,
        reportedIn w (.returned 0))) = some ([true, false], some false, some 4) := by
    decide +kernel
  obtain ⟨w, executed, all⟩ := Option.map_eq_some_iff.mp told
  simp only [Prod.mk.injEq] at all
  obtain ⟨on_off, stepped, reported⟩ := all
  obtain ⟨w', stepped, ended⟩ := Option.map_eq_some_iff.mp stepped
  have run := Machine.run_of_meeting _ executed
  have in_turn := alarms_in_turn someScheme run
  exact ⟨w, run, on_off, in_turn.2.1, w', stepped,
    in_turn.2.2.2 _ w' 4 stepped rfl reported (Option.not_isSome_iff_eq_none.mp (by simp [ended]))⟩

/-- Any run of one process. -/
def inProcess : Step → Bool
  | .restart => false
  | _ => true

/-- `start_metering` while a LogEvent POST that was accepted has not returned. -/
def cancelled : List Step :=
  registered ++ [.statusRead 1 0, .accept, .start .der (some "/lel")] ++
    reading ++ [.statusRead 1 0, .accept]

/-- `start_metering` after the server forgot the MUP. -/
def forgotten : List Step :=
  registered ++ [.statusRead 1 0, .accept, .returned 0] ++
    [.begin, .acquired [] none, .failed (some 404), .statusRead 1 0] ++
    registered ++ [.statusRead 3 0, .accept]

/-- An alarm is reported twice, and a LogEvent ID is used twice. -/
theorem alarm_reported_twice :
    (¬ ∀ w, (manager someScheme).Run (fun _ l _ => inProcess l = true) World.fresh w →
      InTurn (alarmsOf 0 w.events)) ∧
    (¬ ∀ w, (manager someScheme).Run (fun _ l _ => inProcess l = true) World.fresh w →
      (w.events.map LogEvent.logEventID).Nodup) := by
  constructor
  · intro always
    have twice : ((manager someScheme).exec World.fresh cancelled).map
        (fun w => alarmsOf 0 (World.events w)) = some [true, true] := by decide +kernel
    obtain ⟨w, executed, alarms⟩ := Option.map_eq_some_iff.mp twice
    have in_turn := always w (Machine.run_of_labels _ executed (by decide))
    rw [alarms] at in_turn
    exact absurd in_turn.2 (by decide)
  · intro always
    have twice : ((manager someScheme).exec World.fresh forgotten).map
        (fun w => (World.events w).map LogEvent.logEventID) = some [0, 0] := by decide +kernel
    obtain ⟨w, executed, ids⟩ := Option.map_eq_some_iff.mp twice
    have distinct := always w (Machine.run_of_labels _ executed (by decide))
    rw [ids] at distinct
    exact absurd distinct (by decide)

end Py20305.Telemetry
