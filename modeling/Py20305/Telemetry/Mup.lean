import Mathlib.Data.Nat.Bitwise
import Mathlib.Data.Rat.Floor
import Py20305.Lib.Dict
import Py20305.Lib.Rounding
import Py20305.Telemetry.Readings

/-!
MirrorUsagePoints: the mRID and the ReadingType of each reading.

An identity that an earlier release registered has a slot, and the slot gives the mRID;
any other identity is hashed. A table of slots belongs to a reading profile, and under the
signed load convention there are two, one for devices of a single phase. Values are exact here,
rationals where the code has floats.
-/

namespace Py20305.Telemetry

/-- `ReadingProfile`. -/
inductive ReadingProfile where
  | default | signedLoadConvention | signedAsReported
  deriving DecidableEq

/-- Its value, which salts the hash. -/
def ReadingProfile.name : ReadingProfile → String
  | default => "default"
  | signedLoadConvention => "signed_load_convention"
  | signedAsReported => "signed_as_reported"

/-- `PowerDirection`. -/
inductive PowerDirection where
  | default | net | split
  deriving DecidableEq

/-- `DeviceRole`. -/
inductive DeviceRole where
  | der | siteMeter | derMeter
  deriving DecidableEq

/-! ### Units and names -/

/-- `_SIGNED_UOMS`: W, var, VA, A and power factor. -/
def signedUoms : List Int := [38, 63, 61, 5, 65]

/-- `_DIRECTED_UOMS`: W and var. -/
def directedUoms : List Int := [38, 63]

/-- `_SIGNED_LOAD_MULTIPLIER`: amperes are whole. -/
def signedLoadMultiplier (uom : Int) : Int := if uom = 5 then 0 else defaultMultiplier uom

def uomName (uom : Int) : String :=
  match ([(38, "Real Power"), (63, "Reactive Power"), (33, "Frequency"), (29, "Voltage"),
      (65, "Power Factor"), (61, "Apparent Power"), (5, "Current"), (72, "Real Energy")] :
      List (Int × String)).lookup uom with
  | some name => name
  | none => "uom " ++ toString uom

def phaseName (phase : Int) : String :=
  match ([(128, "A"), (64, "B"), (32, "C"), (129, "AN"), (65, "BN"), (33, "CN"), (132, "AB"),
      (66, "BC"), (40, "CA"), (224, "ABC"), (225, "ABCN"), (136, "S1"), (16, "S1N"),
      (8, "S2N"), (24, "S12N"), (134, "S12")] : List (Int × String)).lookup phase with
  | some name => name
  | none => "phase " ++ toString phase

def dataQualifierName : List (Int × String) := [(2, "avg"), (8, "max"), (9, "min")]

/-- `_DIRECTION_SUFFIX`: net, forward, reverse. -/
def directionSuffix : List (Int × String) := [(4, "(net)"), (1, "(forward)"), (19, "(reverse)")]

/-- `_LINE_OF_PHASE`. -/
def lineOfPhase (phase : Int) : Nat :=
  if phase ∈ [128, 129] then 1 else if phase ∈ [64, 65] then 2
  else if phase ∈ [32, 33] then 3 else 0

/-! ### The slot tables -/

/-- `_identity`. -/
def identityOf (uom phase kind dq acc : Int) (flow : Option Int) (multiplier : Int) :
    ReadingIdentity where
  uom := uom
  phase := phase
  kind := kind
  dataQualifier := dq
  accumulationBehaviour := acc
  flowDirection := flow
  multiplier := multiplier

/-- A slot and its description. -/
abbrev Slot := Nat × String

/-- `_system_entries`. -/
def systemEntries (totalPhases : List Int) (ampMultiplier : Int) :
    List (ReadingIdentity × Slot) :=
  totalPhases.flatMap (fun phase =>
    [(identityOf 38 phase 37 12 12 none 0, 1, "Real Power"),
      (identityOf 63 phase 37 12 12 none 0, 2, "Reactive Power"),
      (identityOf 61 phase 37 12 12 none 0, 6, "Apparent Power"),
      (identityOf 5 phase 37 12 12 none ampMultiplier, 7, "Current")]) ++
  [(identityOf 33 0 37 12 12 none (-3), 3, "Frequency"),
    (identityOf 29 0 37 2 12 none (-1), 4, "Voltage"),
    (identityOf 65 0 0 12 12 none (-3), 5, "Power Factor")]

/-- `_per_line_entries`: slots 10 to 27. -/
def perLineEntries (ampMultiplier : Int) : List (ReadingIdentity × Slot) :=
  ([(1, 128, 129), (2, 64, 65), (3, 32, 33)] : List (Nat × Int × Int)).flatMap
    fun (line, phase, vPhase) =>
      let base := 10 + (line - 1) * 6
      let name := fun what : String => what ++ " L" ++ toString line
      [(identityOf 38 phase 37 12 12 none 0, base, name "Real Power"),
        (identityOf 63 phase 37 12 12 none 0, base + 1, name "Reactive Power"),
        (identityOf 29 vPhase 37 2 12 none (-1), base + 2, name "Voltage"),
        (identityOf 65 phase 0 12 12 none (-3), base + 3, name "Power Factor"),
        (identityOf 61 phase 37 12 12 none 0, base + 4, name "Apparent Power"),
        (identityOf 5 phase 37 12 12 none ampMultiplier, base + 5, name "Current")]

/-- `_table`: of two entries for one identity the later one counts. -/
def table (entries : List (ReadingIdentity × Slot)) : Dict ReadingIdentity Slot :=
  entries.foldl (fun t e => t.set e.1 e.2) Dict.empty

/-- `_DEFAULT_SLOTS`. -/
def defaultSlots : Dict ReadingIdentity Slot :=
  table (systemEntries [0] (-1) ++ perLineEntries (-1) ++
    [(identityOf 72 0 12 12 9 (some 1) 0, 61, "Real Energy (forward)"),
      (identityOf 72 0 12 12 9 (some 19) 0, 62, "Real Energy (reverse)")])

/-- `_signed_load_table`. -/
def signedLoadTable (totalPhases : List Int) : Dict ReadingIdentity Slot :=
  table (perLineEntries 0 ++ systemEntries totalPhases 0 ++
    totalPhases.map (fun phase => (identityOf 72 phase 0 12 12 none 0, 8, "State of Energy")) ++
    [(identityOf 29 132 37 12 12 none (-1), 28, "Voltage L1-L2"),
      (identityOf 29 66 37 12 12 none (-1), 29, "Voltage L2-L3"),
      (identityOf 29 40 37 12 12 none (-1), 30, "Voltage L3-L1")])

def signedLoadSlots : Dict ReadingIdentity Slot := signedLoadTable [0, 132, 224]

def signedLoadSlotsSinglePhase : Dict ReadingIdentity Slot := signedLoadTable [0, 128, 132, 224]

/-- `_AS_REPORTED_SLOTS`: the default slots up to 27, plus 70. -/
def asReportedSlots : Dict ReadingIdentity Slot :=
  (defaultSlots.filter fun _ s => decide (s.1 ≤ 27)).mapValues fun s => (s.1 + 70, s.2)

/-- `_AS_REPORTED_SIGNED_UOMS`: W, var and power factor. -/
def asReportedSignedUoms : List Int := [38, 63, 65]

/-- `_LINE_2_3_PHASES`. -/
def line23Phases : List Int := [64, 65, 32, 33]

/-- `_MULTI_PHASE_TOTAL_PHASES`. -/
def multiPhaseTotalPhases : List Int := [132, 224]

/-- `_TOTAL_UOMS`: W, var, VA, A and Wh. -/
def totalUoms : List Int := [38, 63, 61, 5, 72]

/-- `_MULTI_PHASE_ONLY_SLOTS`. -/
def multiPhaseOnlySlots : List Nat := [10, 16, 22]

/-- `_DIRECTED_SLOT_BASE`. -/
def directedSlotBase (flow : Int) : Nat := if flow = 4 then 31 else if flow = 1 then 41 else 51

/-- `_DIRECTED_OFFSET`. -/
def directedOffset : List (Nat × Nat) :=
  [(1, 0), (2, 1), (10, 2), (11, 3), (16, 4), (17, 5), (22, 6), (23, 7)]

/-! ### mRIDs -/

def hexDigit (c : Char) : Nat :=
  if c.isDigit then c.toNat - '0'.toNat else c.toNat - 'a'.toNat + 10

/-- The hexadecimal digits of a string. -/
def hexDigits (s : String) : List Nat := s.toList.map hexDigit

/-- The number with these digits. -/
def number (base : Nat) (digits : List Nat) : Nat := digits.foldl (fun n d => n * base + d) 0

/-- The last `width` digits of a number. -/
def fixedDigits (base : Nat) : Nat → Nat → List Nat
  | 0, _ => []
  | width + 1, n => fixedDigits base width (n / base) ++ [n % base]

/-- `compute_sfdi`: nine hexadecimal digits make eleven decimal ones. -/
def computeSfdi (lfdi : Lfdi) : Nat :=
  let base := number 16 ((hexDigits lfdi).take 9)
  let check := (10 - (fixedDigits 10 11 base).sum % 10) % 10
  base * 10 + check

/-- `DEFAULT_PEN`. -/
def defaultPen : Nat := 53630

/-- `_create_mrid`. -/
@[irreducible] def createMrid (lfdi : Lfdi) (index : Nat) : Mrid :=
  let slot := if index < 10 then index :: (hexDigits lfdi).take 11
    else fixedDigits 10 2 index ++ (hexDigits lfdi).take 10
  number 16 (fixedDigits 10 12 (computeSfdi lfdi) ++ slot ++ fixedDigits 16 8 defaultPen)

/-- The text a reading's identity is hashed as. -/
def hashedText (lfdi : Lfdi) (identity : ReadingIdentity) (salt : String) : String :=
  "|".intercalate
    [lfdi, toString identity.uom, toString identity.phase, toString identity.kind,
      toString identity.dataQualifier, toString identity.accumulationBehaviour,
      (identity.flowDirection.map toString).getD "", toString identity.multiplier, salt]

/-- `_hashed_mrid`. `sha256` gives the hexadecimal digits of a digest. -/
def hashedMrid (sha256 : String → List Nat) (lfdi : Lfdi) (identity : ReadingIdentity)
    (salt : String) : Mrid :=
  number 16 (fixedDigits 10 12 (computeSfdi lfdi) ++ 15 ::
    (sha256 (hashedText lfdi identity salt)).take 11 ++ fixedDigits 16 8 defaultPen)

/-! ### Readings to MirrorMeterReadings -/

/-- `ReadingType1`, as a MirrorUsagePoint registers it. -/
structure ReadingType where
  accumulationBehaviour : Int
  commodity : Int
  dataQualifier : Int
  flowDirection : Option Int
  kind : Int
  powerOfTenMultiplier : Int
  uom : Int
  phase : Option Int
  deriving DecidableEq

/-- The position in a MirrorUsagePoint: the readings with a slot first. -/
abbrev Order := Int × Int × Int

def orderLe (a b : Order) : Bool :=
  decide (a.1 < b.1 ∨ a.1 = b.1 ∧ (a.2.1 < b.2.1 ∨ a.2.1 = b.2.1 ∧ a.2.2 ≤ b.2.2))

/-- `RegisteredReading`. -/
structure RegisteredReading where
  mrid : Mrid
  description : String
  readingType : ReadingType
  order : Order
  deriving DecidableEq

abbrev Registered := Dict Mrid RegisteredReading

/-- `_Posted`. -/
structure Posted where
  mrid : Mrid
  description : String
  order : Order
  reading : Reading
  uom : Int
  phase : Int
  kind : Int
  dataQualifier : Int
  accumulationBehaviour : Int
  multiplier : Int
  commodity : Int
  flowDirection : Option Int
  line : Nat

/-- How a device's readings are posted: its LFDI, the profile and the power direction. -/
structure Scheme where
  sha256 : String → List Nat
  lfdi : Lfdi
  profile : ReadingProfile
  powerDirection : PowerDirection

/-- `_description`, of at most 32 characters. -/
def describe (identity : ReadingIdentity) (flow : Option Int) : String :=
  let name :=
    if identity.uom = 72 ∧ identity.kind = 0 then "State of Energy" else uomName identity.uom
  let phase := if identity.phase = 0 then [] else [phaseName identity.phase]
  let qualifier := (dataQualifierName.lookup identity.dataQualifier).toList
  let direction := (flow.bind fun f => directionSuffix.lookup f).toList
  String.ofList
    (((" ".intercalate (name :: phase ++ qualifier ++ direction)).toList).take 32)

/-- `_legacy_slot`. -/
def legacySlot (legacy : Option Slot) (flow ownFlow : Option Int) : Option Nat :=
  match legacy with
  | none => none
  | some slot =>
      if flow = ownFlow then some slot.1
      else
        match directedOffset.lookup slot.1, flow with
        | some offset, some direction => some (directedSlotBase direction + offset)
        | _, _ => none

/-- `_line_of`: a reading with a slot takes the line of its slot. -/
def lineOf (r : Reading) (legacy : Option Slot) : Nat :=
  match legacy with
  | some slot => if 10 ≤ slot.1 ∧ slot.1 ≤ 27 then (slot.1 - 10) / 6 + 1 else 0
  | none => lineOfPhase r.phase

/-- A phase and a unit only a device of several phases has. -/
def showsMultiPhase (phase uom : Int) : Bool :=
  decide (phase ∈ line23Phases ∨ phase ∈ multiPhaseTotalPhases ∧ uom ∈ totalUoms)

/-- `_is_multi_phase`. -/
def isMultiPhase (lfdi : Lfdi) (readings : List Reading) (registered : Registered) : Bool :=
  readings.any (fun r => showsMultiPhase r.phase r.uom) ||
    multiPhaseOnlySlots.any (fun slot => (registered.get? (createMrid lfdi slot)).isSome) ||
    registered.values.any fun entry =>
      showsMultiPhase (entry.readingType.phase.getD 0) entry.readingType.uom

/-- The readings that can be posted: valid ones, and of those the declared ones where a
device's connector declares its readings. -/
def Scheme.postable (s : Scheme) (readings : List Reading)
    (declared : Option (List ReadingIdentity)) : List Reading :=
  let valid := validReadings readings
  match s.profile, declared with
  | .signedAsReported, some identities => valid.filter fun r => readingIdentity r ∈ identities
  | _, _ => valid

/-- The table of slots a cycle uses. -/
def Scheme.slots (s : Scheme) (multiPhase : Bool) : Dict ReadingIdentity Slot :=
  match s.profile with
  | .default => defaultSlots
  | .signedAsReported => asReportedSlots
  | .signedLoadConvention => if multiPhase then signedLoadSlots else signedLoadSlotsSinglePhase

def Scheme.defaults (s : Scheme) : Int → Int :=
  if s.profile = .signedLoadConvention then signedLoadMultiplier else defaultMultiplier

/-- The directions a W or var reading that sets none is posted in. -/
def Scheme.directions (s : Scheme) : List Int :=
  match s.profile, s.powerDirection with
  | .default, .net => [4]
  | .default, .split => [1, 19]
  | _, _ => []

/-- The variants of a reading: its flow direction, and its identity with it. -/
def Scheme.variants (s : Scheme) (r : Reading) : List (Option Int × ReadingIdentity) :=
  let identity := readingIdentity r s.defaults
  if s.directions ≠ [] ∧ r.uom ∈ directedUoms ∧ r.flowDirection = none then
    s.directions.map fun flow => (some flow, { identity with flowDirection := some flow })
  else [(r.flowDirection, identity)]

/-- The slot of a variant. -/
def Scheme.slot (s : Scheme) (multiPhase : Bool) (r : Reading) (flow : Option Int) : Option Nat :=
  legacySlot ((s.slots multiPhase).get? (readingIdentity r s.defaults)) flow r.flowDirection

/-- The mRID of a variant. -/
def Scheme.mrid (s : Scheme) (multiPhase : Bool) (r : Reading)
    (variant : Option Int × ReadingIdentity) : Mrid :=
  match s.slot multiPhase r variant.1 with
  | some slot => createMrid s.lfdi slot
  | none => hashedMrid s.sha256 s.lfdi variant.2 s.profile.name

/-- One variant of a reading as it is posted: the body of the loops of
`_posted_readings`. -/
def Scheme.posted (s : Scheme) (multiPhase : Bool) (r : Reading) (position rank : Nat)
    (variant : Option Int × ReadingIdentity) : Posted :=
  let signedLoad := decide (s.profile = .signedLoadConvention)
  let identity := readingIdentity r s.defaults
  let legacy := (s.slots multiPhase).get? identity
  let flow := variant.1
  { mrid := s.mrid multiPhase r variant
    description :=
      match legacy, s.slot multiPhase r flow with
      | some slot, some _ =>
          match flow with
          | some f =>
              if flow = r.flowDirection then slot.2
              else slot.2 ++ " " ++ (directionSuffix.lookup f).getD ""
          | none => slot.2
      | _, _ => describe variant.2 flow
    order :=
      match legacy, s.slot multiPhase r flow with
      | some slot, some _ => (0, slot.1, rank)
      | _, _ => (1, position, rank)
    reading := r
    uom := r.uom
    phase := r.phase
    kind := if signedLoad then 0 else r.kind
    dataQualifier := if signedLoad then 0 else r.dataQualifier
    accumulationBehaviour := r.accumulationBehaviour
    multiplier := identity.multiplier
    commodity := if signedLoad then 0 else 1
    flowDirection := if flow = none ∧ signedLoad then some 0 else flow
    line := lineOf r
      (if s.profile = .signedAsReported then legacy.map fun slot => (slot.1 - 70, slot.2)
        else legacy) }

/-- Every variant of every reading. -/
def Scheme.wanted (s : Scheme) (multiPhase : Bool) (readings : List Reading) : List Posted :=
  readings.zipIdx.flatMap fun (r, position) =>
    (s.variants r).zipIdx.map fun (variant, rank) => s.posted multiPhase r position rank variant

/-- Of several with one mRID the first is posted. -/
def keepFirst (seen : List Mrid) : List Posted → List Posted
  | [] => []
  | p :: rest =>
      if p.mrid ∈ seen then keepFirst seen rest else p :: keepFirst (p.mrid :: seen) rest

/-- Whether the cycle uses the table of several phases. -/
def Scheme.multiPhase (s : Scheme) (readings : List Reading) (registered : Registered)
    (declared : Option (List ReadingIdentity)) : Bool :=
  decide (s.profile = .signedLoadConvention) &&
    isMultiPhase s.lfdi (s.postable readings declared) registered

/-- `_posted_readings`. -/
def Scheme.postedReadings (s : Scheme) (readings : List Reading) (registered : Registered)
    (declared : Option (List ReadingIdentity)) : List Posted :=
  (keepFirst []
    (s.wanted (s.multiPhase readings registered declared) (s.postable readings declared))).mergeSort
    fun p q => orderLe p.order q.order

/-! ### Registration -/

/-- `_scale_truncated`. -/
def scaleTruncated (raw : ℚ) (multiplier : Int) : Int := truncate (raw * (10 : ℚ) ^ (-multiplier))

/-- `_registration_flow`. -/
def registrationFlow (p : Posted) : Int :=
  match p.flowDirection with
  | some flow => flow
  | none =>
      if p.uom ∈ signedUoms ∧ scaleTruncated (p.reading.value.getD 0) p.multiplier < 0 then 19
      else 1

/-- `_reading_type`. -/
def readingType (p : Posted) (flow : Option Int) : ReadingType where
  accumulationBehaviour := p.accumulationBehaviour
  commodity := p.commodity
  dataQualifier := p.dataQualifier
  flowDirection := flow
  kind := p.kind
  powerOfTenMultiplier := p.multiplier
  uom := p.uom
  phase := if p.phase = 0 then none else some p.phase

/-- What a reading that is not registered yet registers as. -/
def Scheme.newReading (s : Scheme) (p : Posted) : RegisteredReading where
  mrid := p.mrid
  description := p.description
  readingType := readingType p
    (if s.profile = .default then some (registrationFlow p) else p.flowDirection)
  order := p.order

/-- `_placeholders`: a reading for each declared identity the cycle does not supply. The
identities are visited in the order of `repr`, which is the order given here. -/
def placeholders (declared : List ReadingIdentity) (present : List Reading) : List Reading :=
  ((declared.filter fun identity => identity ∉ present.map readingIdentity).map fun identity =>
    { uom := identity.uom, value := some 0, phase := identity.phase, kind := identity.kind,
      dataQualifier := identity.dataQualifier,
      accumulationBehaviour := identity.accumulationBehaviour,
      flowDirection := identity.flowDirection,
      multiplier := some identity.multiplier }).filter isValidReading

/-- The readings a plan is made from. -/
def Scheme.candidates (s : Scheme) (readings : List Reading)
    (declared : Option (List ReadingIdentity)) : List Reading :=
  match s.profile, declared with
  | .signedAsReported, some identities =>
      readings ++ placeholders identities (validReadings readings)
  | _, _ => readings

/-- Add a reading to a plan, unless it is there. -/
def Scheme.addReading (s : Scheme) (plan : Registered) (p : Posted) : Registered :=
  if (plan.get? p.mrid).isSome then plan else plan.set p.mrid (s.newReading p)

/-- `plan_registration`. -/
def Scheme.planRegistration (s : Scheme) (readings : List Reading) (registered : Registered)
    (declared : Option (List ReadingIdentity)) : Registered :=
  ((s.postedReadings (s.candidates readings declared) registered declared).foldl s.addReading
    registered).sortedBy fun a b => orderLe a.2.order b.2.order

/-! ### A cycle's readings -/

/-- Rounded half away from zero. -/
def roundHalfAway (q : ℚ) : Int := if 0 ≤ q then ⌊q + 1 / 2⌋ else -⌊-q + 1 / 2⌋

/-- `_scale_half_away`. -/
def scaleHalfAway (raw : ℚ) (multiplier : Int) : Int :=
  roundHalfAway (raw * (10 : ℚ) ^ (-multiplier))

/-- `_default_value`. -/
def defaultValue (p : Posted) : Int :=
  let scaled := scaleTruncated (p.reading.value.getD 0) p.multiplier
  if p.flowDirection = some 4 then scaled
  else if p.flowDirection = some 1 ∧ p.reading.flowDirection = none then max scaled 0
  else if p.flowDirection = some 19 ∧ p.reading.flowDirection = none then max (-scaled) 0
  else scaled.natAbs

/-- `_signed_load_value`. -/
def signedLoadValue (p : Posted) (varByLine : Dict Nat Int) (role : DeviceRole) : Int :=
  let scaled := scaleHalfAway (p.reading.value.getD 0) p.multiplier
  let flow := p.reading.flowDirection
  if flow ≠ none ∧ ¬ (flow = some 4 ∧ p.uom ∈ directedUoms) then scaled.natAbs
  else if p.uom ∈ directedUoms then if role = .siteMeter then scaled else -scaled
  else if p.uom = 65 then
    match varByLine.get? p.line with
    | some var => if var < 0 then -(scaled.natAbs : Int) else scaled.natAbs
    | none => scaled.natAbs
  else scaled.natAbs

/-- `_as_reported_value`. -/
def asReportedValue (p : Posted) : Int :=
  let scaled := scaleHalfAway (p.reading.value.getD 0) p.multiplier
  if p.reading.flowDirection = none ∧ p.uom ∈ asReportedSignedUoms then scaled else scaled.natAbs

/-- `_quality_flags`: a stale reading is questionable, and not valid. -/
def qualityFlags (r : Reading) (stale : Bool) : Nat :=
  let resolved := (r.qualityFlags.getD 1).toNat
  if stale then Nat.ldiff (resolved ||| 16) 1 else resolved

/-- A reading posted under an mRID. -/
structure MeterReading where
  mrid : Mrid
  description : String
  qualityFlags : Nat
  duration : Nat
  start : Int
  value : Int
  nextUpdateTime : Option Int
  deriving DecidableEq

/-- When and how a cycle's readings are posted. -/
structure Posting where
  timestamp : Int
  postRate : Nat
  nextUpdateTime : Option Int
  stale : Bool
  role : DeviceRole

/-- The var posted for each line, which a power factor takes its sign from. -/
def varByLine (posted : List Posted) (role : DeviceRole) : Dict Nat Int :=
  posted.foldl (fun vars p =>
    if p.uom = 63 ∧ p.reading.flowDirection = none ∧ vars.get? p.line = none then
      vars.set p.line (signedLoadValue p Dict.empty role)
    else vars) Dict.empty

/-- The value posted for a reading. -/
def Scheme.value (s : Scheme) (p : Posted) (vars : Dict Nat Int) (role : DeviceRole) : Int :=
  match s.profile with
  | .default => defaultValue p
  | .signedLoadConvention => signedLoadValue p vars role
  | .signedAsReported => asReportedValue p

def Scheme.meterReading (s : Scheme) (how : Posting) (vars : Dict Nat Int) (p : Posted) :
    MeterReading where
  mrid := p.mrid
  description := p.description
  qualityFlags := qualityFlags p.reading how.stale
  duration :=
    if s.profile = .signedLoadConvention ∨ p.dataQualifier = 12 then 0 else how.postRate
  start := how.timestamp
  value := s.value p vars how.role
  nextUpdateTime := how.nextUpdateTime

/-- `create_meter_reading_list`: the posted readings that are registered. -/
def Scheme.createMeterReadingList (s : Scheme) (readings : List Reading) (how : Posting)
    (registered : Registered) (declared : Option (List ReadingIdentity)) : List MeterReading :=
  let posted := s.postedReadings readings registered declared
  let vars := varByLine posted how.role
  (posted.filter fun p => (registered.get? p.mrid).isSome).map (s.meterReading how vars)

end Py20305.Telemetry
