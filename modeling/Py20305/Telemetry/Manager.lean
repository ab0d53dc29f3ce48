import Py20305.Lib.Machine
import Py20305.Telemetry.Mup

/-!
`TelemetryManager`, for one device: its metering cycles, its registrations and its alarms.

A cycle takes one `Step` from one wait to the next. A POST the server accepts is recorded
when it accepts it, which is before the cycle goes on: `start_metering` cancels the task
whose cycle is waiting, and a restart ends it. The posted availability changes nothing
here and is left out.
-/

namespace Py20305.Telemetry

/-! ### Alarms -/

/-- `DER_ALARM_NAMES`: the alarm bits that have a LogEvent code. -/
def derAlarmNames : List String :=
  ["Over Current", "Over Voltage", "Under Voltage", "Over Frequency", "Under Frequency",
    "Voltage Imbalance", "Current Imbalance", "Local Emergency", "Remote Emergency",
    "Low Input Power", "Phase Rotation"]

/-- `MAPPED_ALARM_MASK`. -/
def mappedAlarmMask : Nat := 2 ^ derAlarmNames.length - 1

/-- `alarm_log_event_code`. -/
def alarmLogEventCode (bit : Nat) (returnedToNormal : Bool) : Nat :=
  2 * bit + if returnedToNormal then 1 else 0

/-- `alarm_bits_to_log_events`: the bits that changed, with their codes. -/
def alarmBitsToLogEvents (previous current : Nat) : List (Nat × Nat) :=
  ((List.range derAlarmNames.length).filter fun bit => (previous ^^^ current).testBit bit).map
    fun bit => (bit, alarmLogEventCode bit !current.testBit bit)

/-- A posted LogEvent. -/
structure LogEvent where
  createdDateTime : Int
  details : Option String
  functionSet : Nat
  logEventCode : Nat
  logEventID : Nat
  logEventPEN : Nat
  profileID : Nat
  deriving DecidableEq

/-- `create_log_event_xml`. -/
def createLogEvent (code id : Nat) (details : Option String) (now : Int) : LogEvent where
  createdDateTime := now
  details := details.map fun text => String.ofList (text.toList.take 32)
  functionSet := 11
  logEventCode := code
  logEventID := id
  logEventPEN := 40732
  profileID := 2

/-! ### The state of a device -/

/-- `DeviceTelemetryState`. -/
structure DeviceTelemetryState where
  mupPosted : Bool := false
  registered : Registered := Dict.empty
  rejectedRegistration : Option (List Mrid) := none
  registeredDeclaration : Option (List ReadingIdentity) := none
  logEventListHref : Option Href
  logEventIdCounter : Nat := 0
  lastAlarmStatus : Nat := 0
  telemetryBlocked : Bool := false
  role : DeviceRole

/-- What `start_metering` keeps of a state that exists: its MUP where it is posted, and in
any case the alarms and the block. -/
def carriedOver (existing : Option DeviceTelemetryState) (role : DeviceRole)
    (logEventListHref : Option Href) : DeviceTelemetryState :=
  match existing with
  | none => { logEventListHref := logEventListHref, role := role }
  | some d =>
      if d.mupPosted then
        { d with logEventListHref := logEventListHref, role := role }
      else
        { logEventListHref := logEventListHref
          lastAlarmStatus := d.lastAlarmStatus
          telemetryBlocked := d.telemetryBlocked
          role := role }

/-- `start_metering`. A state without registrations takes those of a checkpoint. -/
def startMetering (existing : Option DeviceTelemetryState) (restored : Registered)
    (role : DeviceRole) (logEventListHref : Option Href) : DeviceTelemetryState :=
  let state := carriedOver existing role logEventListHref
  if state.registered.keys.isEmpty then { state with registered := restored } else state

/-- The mRIDs of two registrations are the same, in any order. -/
def sameMrids (a b : List Mrid) : Bool := a.all (· ∈ b) && b.all (· ∈ a)

/-- `_registration_grew`. -/
def registrationGrew (s : Scheme) (d : DeviceTelemetryState) (readings : List Reading) : Bool :=
  let plan := s.planRegistration readings d.registered d.registeredDeclaration
  if d.rejectedRegistration.any (sameMrids plan.keys) then false
  else !sameMrids plan.keys d.registered.keys

/-! ### Checkpoints -/

/-- `reading_to_dict`: a registered reading as data. -/
structure ReadingData where
  mrid : Mrid
  description : String
  order : Order
  accumulationBehaviour : Option Int
  commodity : Option Int
  dataQualifier : Option Int
  flowDirection : Option Int
  kind : Option Int
  powerOfTenMultiplier : Option Int
  uom : Option Int
  phase : Option Int

def readingToDict (r : RegisteredReading) : ReadingData where
  mrid := r.mrid
  description := r.description
  order := r.order
  accumulationBehaviour := some r.readingType.accumulationBehaviour
  commodity := some r.readingType.commodity
  dataQualifier := some r.readingType.dataQualifier
  flowDirection := r.readingType.flowDirection
  kind := some r.readingType.kind
  powerOfTenMultiplier := some r.readingType.powerOfTenMultiplier
  uom := some r.readingType.uom
  phase := r.readingType.phase

/-- `reading_from_dict`. -/
def readingFromDict (d : ReadingData) : Option RegisteredReading :=
  match d.accumulationBehaviour, d.commodity, d.dataQualifier, d.kind, d.powerOfTenMultiplier,
      d.uom with
  | some accumulation, some commodity, some qualifier, some kind, some multiplier, some uom =>
      some
        { mrid := d.mrid
          description := d.description
          order := d.order
          readingType :=
            { accumulationBehaviour := accumulation
              commodity := commodity
              dataQualifier := qualifier
              flowDirection := d.flowDirection
              kind := kind
              powerOfTenMultiplier := multiplier
              uom := uom
              phase := d.phase.filter (· != 0) } }
  | _, _, _, _, _, _ => none

/-- What `to_checkpoint` writes for the device. -/
def toCheckpoint (device : Option DeviceTelemetryState) (restored : Registered) :
    List ReadingData :=
  let registered :=
    match device with
    | some d => if d.registered.keys.isEmpty then restored else d.registered
    | none => restored
  registered.values.map readingToDict

/-- `_parse_device`: the readings that parse. -/
def parseDevice (data : List ReadingData) : Registered :=
  (data.filterMap readingFromDict).foldl (fun registered r => registered.set r.mrid r) Dict.empty

/-! ### Cycles -/

/-- What a metering cycle waits for. -/
inductive Waiting where
  | acquiring
  /-- The MUP POST that registers `plan`, and whether the server accepted it. -/
  | registering (plan : Registered) (declared : Option (List ReadingIdentity)) (accepted : Bool)
  /-- The POST of its readings. -/
  | posting
  /-- The read of the device's status. -/
  | status
  /-- The POST of a LogEvent for `bit`, with those that come after it. -/
  | alarming (alarm bit : Nat) (rest : List (Nat × Nat)) (event : LogEvent) (accepted : Bool)

structure World where
  device : Option DeviceTelemetryState
  /-- `_restored`, for the device. -/
  restored : Registered
  /-- The last checkpoint written. -/
  checkpoint : List ReadingData
  cycle : Option Waiting
  /-- What each MUP POST that the server accepted registers. -/
  mups : List Registered
  /-- The LogEvents the server accepted. -/
  events : List LogEvent

/-- A manager before its first `start_metering`. -/
def World.fresh : World where
  device := none
  restored := Dict.empty
  checkpoint := []
  cycle := none
  mups := []
  events := []

/-- The cycle goes on to its LogEvents. A meter has none. -/
def World.afterReadings (w : World) (d : DeviceTelemetryState) : World :=
  if d.role = .der ∧ d.logEventListHref.isSome then
    { w with device := some d, cycle := some .status }
  else { w with device := some d, cycle := none }

/-- The device was read: register what is new, or post the readings. -/
def World.acquired (s : Scheme) (w : World) (d : DeviceTelemetryState) (readings : List Reading)
    (declared : Option (List ReadingIdentity)) : World :=
  if d.mupPosted then
    if registrationGrew s d readings then
      { w with
        cycle := some (.registering (s.planRegistration readings d.registered none) none false) }
    else { w with cycle := some .posting }
  else
    { w with
      cycle :=
        some (.registering (s.planRegistration readings d.registered declared) declared false) }

/-- `_post_mup`, from where its POST returned. A changed registration is written to the
checkpoint. -/
def World.mupPosted (w : World) (d : DeviceTelemetryState) (plan : Registered)
    (declared : Option (List ReadingIdentity)) : World :=
  let d' : DeviceTelemetryState :=
    { d with mupPosted := true, registered := plan, registeredDeclaration := declared,
             rejectedRegistration := none }
  let w :=
    { w with
      device := some d'
      checkpoint :=
        if sameMrids plan.keys d.registered.keys then w.checkpoint
        else toCheckpoint (some d') w.restored }
  if d.mupPosted then { w with cycle := some .posting } else w.afterReadings d'

/-- `_post_mup`, from where its POST failed, with a status or without an answer. -/
def World.mupFailed (w : World) (d : DeviceTelemetryState) (plan : Registered)
    (status : Option Nat) : World :=
  if d.mupPosted then
    let d' := if status.any fun code => 400 ≤ code && code < 500 then
        { d with rejectedRegistration := some plan.keys } else d
    { w with device := some d', cycle := some .posting }
  else
    w.afterReadings (if status = some 403 then { d with telemetryBlocked := true } else d)

/-- `_post_readings`, from where its POST failed. -/
def readingsFailed (d : DeviceTelemetryState) (status : Option Nat) : DeviceTelemetryState :=
  if status = some 400 ∨ status = some 404 then { d with mupPosted := false }
  else if status = some 403 then { d with telemetryBlocked := true }
  else d

/-- The next LogEvent of a cycle, or its end. -/
def nextEvent (d : DeviceTelemetryState) (alarm : Nat) (now : Int) :
    List (Nat × Nat) → Option Waiting
  | [] => none
  | (bit, code) :: rest =>
      some (.alarming alarm bit rest
        (createLogEvent code d.logEventIdCounter (derAlarmNames[bit]?) now) false)

/-- `_post_log_event`, from where the status was read: bits without a code go straight into
the baseline. -/
def World.statusRead (w : World) (d : DeviceTelemetryState) (alarm : Nat) (now : Int) : World :=
  let events := alarmBitsToLogEvents d.lastAlarmStatus alarm
  let d' : DeviceTelemetryState :=
    { d with
      lastAlarmStatus :=
        (d.lastAlarmStatus &&& mappedAlarmMask) ||| Nat.ldiff alarm mappedAlarmMask }
  { w with device := some d', cycle := nextEvent d' alarm now events }

/-- `_post_log_event`, from where a POST returned: the baseline has the bit. -/
def World.logged (w : World) (d : DeviceTelemetryState) (alarm bit : Nat)
    (rest : List (Nat × Nat)) (now : Int) : World :=
  let d' : DeviceTelemetryState :=
    { d with
      logEventIdCounter := d.logEventIdCounter + 1
      lastAlarmStatus :=
        if alarm.testBit bit then d.lastAlarmStatus ||| 2 ^ bit
        else Nat.ldiff d.lastAlarmStatus (2 ^ bit) }
  { w with device := some d', cycle := nextEvent d' alarm now rest }

/-- The server accepts the POST the cycle waits for. -/
def World.accept (w : World) : Option World :=
  match w.cycle with
  | some (.registering plan declared false) =>
      some { w with cycle := some (.registering plan declared true), mups := w.mups ++ [plan] }
  | some (.alarming alarm bit rest event false) =>
      some { w with
        cycle := some (.alarming alarm bit rest event true), events := w.events ++ [event] }
  | _ => none

/-- What the cycle waits for fails. -/
def World.failed (w : World) (d : DeviceTelemetryState) (status : Option Nat) : Waiting → World
  | .acquiring => { w with cycle := none }
  | .registering plan _ _ => w.mupFailed d plan status
  | .posting => w.afterReadings (readingsFailed d status)
  | .status => { w with cycle := none }
  | .alarming _ _ _ _ _ => { w with cycle := none }

inductive Step where
  /-- `start_metering`, at any moment. -/
  | start (role : DeviceRole) (logEventListHref : Option Href)
  /-- A metering cycle begins. -/
  | begin
  | acquired (readings : List Reading) (declared : Option (List ReadingIdentity))
  | accept
  /-- A POST returns. -/
  | returned (now : Int)
  | statusRead (alarm : Nat) (now : Int)
  | failed (status : Option Nat)
  /-- The registration of another device changes, and a checkpoint is written. -/
  | checkpoint
  /-- A new process restores the last checkpoint. -/
  | restart

def World.step (s : Scheme) (w : World) : Step → Option World
  | .start role href =>
      some { w with device := some (startMetering w.device w.restored role href), cycle := none }
  | .begin =>
      match w.device, w.cycle with
      | some d, none =>
          if d.telemetryBlocked then none else some { w with cycle := some .acquiring }
      | _, _ => none
  | .acquired readings declared =>
      match w.device, w.cycle with
      | some d, some .acquiring => some (w.acquired s d readings declared)
      | _, _ => none
  | .accept => w.accept
  | .returned now =>
      match w.device, w.cycle with
      | some d, some (.registering plan declared true) => some (w.mupPosted d plan declared)
      | some d, some .posting => some (w.afterReadings d)
      | some d, some (.alarming alarm bit rest _ true) => some (w.logged d alarm bit rest now)
      | _, _ => none
  | .statusRead alarm now =>
      match w.device, w.cycle with
      | some d, some .status => some (w.statusRead d alarm now)
      | _, _ => none
  | .failed status =>
      match w.device, w.cycle with
      | some d, some waiting => some (w.failed d status waiting)
      | _, _ => none
  | .checkpoint => some { w with checkpoint := toCheckpoint w.device w.restored }
  | .restart =>
      some { w with device := none, restored := parseDevice w.checkpoint, cycle := none }

/-- The manager, for one device posted by `s`. -/
@[reducible] def manager (s : Scheme) : Machine where
  State := World
  Label := Step
  step l w := w.step s l

/-! ### Short runs -/

/-- A device, of default profile. -/
def someScheme : Scheme where
  sha256 _ := []
  lfdi := "3e4f45ab31edfe5b67e343e5e4562e31984e23e5"
  profile := .default
  powerDirection := .default

/-- A device is started, and its first cycle posts its MUP. -/
def registering (readings : List Reading) (logEventListHref : Option Href) : List Step :=
  [.start .der logEventListHref, .begin, .acquired readings none, .accept, .returned 0]

end Py20305.Telemetry
