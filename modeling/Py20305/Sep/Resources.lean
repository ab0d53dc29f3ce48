import Mathlib.Data.Finset.Basic
import Mathlib.Data.Finset.Union

/-!
The IEEE 2030.5 resources the client reads, as far as its control logic reads
them.

A control mode is named as the event processor names it: by its
`DERControlBase` field, or by its element name for the four CSIP-AUS envelope
limits, which ride in the extension slot. Setpoint values and curves are passed
through to the connectors unread and are left out; what matters here is which
modes a control sets. The three vocabularies of the source are kept apart:

* `getActiveModeNames`: the modes an event is tracked by (`_FIELD_TO_BIT` and
  the CSIP-AUS limits);
* `comparedModeKeys`: the keys supersession compares (every base field, connect
  and energize excepted, extension elements unseen);
* `keptAtEventEnd`: the modes an event's end does not withdraw.
-/

namespace Py20305

/-- A resource path on the server. -/
abbrev Href := String

/-- A device identity, in hexadecimal. -/
abbrev Lfdi := String

/-- A 16-byte resource identifier, read as a number. -/
abbrev Mrid := Nat

/-! ### Control modes -/

/-- Every `DERControlBase` field, then the CSIP-AUS limit elements. -/
inductive Mode where
  | opModConnect | opModDeltaVar | opModDeltaW | opModEnergize
  | opModFixedPfabsorbW | opModFixedPfinjectW | opModFixedV | opModFixedVar | opModFixedW
  | opModFreqDroop | opModFreqWatt | opModGridConnectPermit
  | opModHfrtmayTrip | opModHfrtmustTrip | opModHvrtmayTrip
  | opModHvrtmomentaryCessation | opModHvrtmustTrip | opModIslandPermit
  | opModLfrtmayTrip | opModLfrtmustTrip | opModLvrtmayTrip
  | opModLvrtmomentaryCessation | opModLvrtmustTrip
  | opModMaxLimPctVaabsorb | opModMaxLimPctVainject
  | opModMaxLimPctVarAbsorb | opModMaxLimPctVarInject | opModMaxLimPctWabsorb
  | opModMaxLimVarAbsorb | opModMaxLimVarInject
  | opModMaxLimW | opModMaxLimWabsorb | opModMaxLimWinject
  | opModTargetV | opModTargetVar | opModTargetW
  | opModVoltVar | opModVoltWatt | opModWattPf | opModWattVar
  | rampTms
  | opModExpLimW | opModImpLimW | opModGenLimW | opModLoadLimW
  deriving DecidableEq, Repr

namespace Mode

/-- `DOE_LIMIT_NAMES`: the elements carried in the extension slot. -/
def isDoeLimit : Mode → Bool
  | opModExpLimW | opModImpLimW | opModGenLimW | opModLoadLimW => true
  | _ => false

/-- The keys of `_FIELD_TO_BIT2`, which the mode tracker does not know. -/
def inFieldToBit2 : Mode → Bool
  | opModMaxLimPctVaabsorb | opModMaxLimPctVainject | opModMaxLimPctVarAbsorb
  | opModMaxLimPctVarInject | opModMaxLimPctWabsorb | opModMaxLimVarAbsorb
  | opModMaxLimVarInject | opModMaxLimWabsorb | opModMaxLimWinject | opModTargetV => true
  | _ => false

/-- The names `get_active_mode_names` can report: the keys of `_FIELD_TO_BIT`
and the CSIP-AUS limits. -/
def isTracked (m : Mode) : Bool := !m.inFieldToBit2 && m != rampTms

/-- `_EXCLUDED_FIELDS` of the supersession comparison. -/
def isExcluded : Mode → Bool
  | opModConnect | opModEnergize => true
  | _ => false

/-- The field names supersession compares. Extension elements are not fields. -/
def isCompared (m : Mode) : Bool := !m.isExcluded && !m.isDoeLimit

/-- `_KEPT_AT_EVENT_END`. -/
def keptAtEventEnd : Mode → Bool
  | opModConnect | opModEnergize | opModGridConnectPermit | opModIslandPermit => true
  | _ => false

/-- The modes of `ELEMENT_BY_MODE`: each has one connector method. -/
def hasElement (m : Mode) : Bool := m != rampTms

/-- The keys of `FIELD_DISABLE_CALLS`. -/
def isWithdrawable (m : Mode) : Bool := m.hasElement && !m.keptAtEventEnd

end Mode

/-- The modes a `DERControlBase` sets. -/
structure DercontrolBase where
  present : Finset Mode
  deriving DecidableEq

/-- `get_active_mode_names`. -/
def getActiveModeNames (base : DercontrolBase) : Finset Mode :=
  base.present.filter (fun m => m.isTracked)

/-- `compared_mode_keys`. -/
def comparedModeKeys (base : DercontrolBase) : Finset Mode :=
  base.present.filter (fun m => m.isCompared)

/-- The modes `translate_controls` makes a connector call for. -/
def translatedModes (base : DercontrolBase) : Finset Mode :=
  base.present.filter (fun m => m.hasElement)

/-- The base with `modes` taken out of it. -/
def DercontrolBase.without (base : DercontrolBase) (modes : Finset Mode) : DercontrolBase :=
  ⟨base.present \ modes⟩

theorem mem_getActiveModeNames {base : DercontrolBase} {m : Mode} :
    m ∈ getActiveModeNames base ↔ m ∈ base.present ∧ m.isTracked = true :=
  Finset.mem_filter

theorem mem_translatedModes {base : DercontrolBase} {m : Mode} :
    m ∈ translatedModes base ↔ m ∈ base.present ∧ m.hasElement = true :=
  Finset.mem_filter

/-- Every tracked mode has a connector method, so what is tracked is written. -/
theorem Mode.hasElement_of_isTracked {m : Mode} (h : m.isTracked = true) :
    m.hasElement = true := by
  simp only [isTracked, Bool.and_eq_true] at h
  exact h.2

theorem getActiveModeNames_subset_translated (base : DercontrolBase) :
    getActiveModeNames base ⊆ translatedModes base := by
  intro m member
  rw [mem_getActiveModeNames] at member
  exact mem_translatedModes.mpr ⟨member.1, Mode.hasElement_of_isTracked member.2⟩

theorem getActiveModeNames_without (base : DercontrolBase) (modes : Finset Mode) :
    getActiveModeNames (base.without modes) = getActiveModeNames base \ modes := by
  ext m
  simp only [mem_getActiveModeNames, DercontrolBase.without, Finset.mem_sdiff]
  tauto

/-! ### Controls -/

/-- `EventStatus`: the server's own view of an event. -/
structure EventStatus where
  currentStatus : Nat
  dateTime : Option Int
  deriving DecidableEq

/-- `Dercontrol1`: one DERControl as served. -/
structure Dercontrol where
  mrid : Mrid
  start : Int
  duration : Int
  randomizeStart : Option Int
  randomizeDuration : Option Int
  eventStatus : Option EventStatus
  creationTime : Option Int
  base : DercontrolBase
  responseRequired : Option Nat
  replyTo : Option Href
  deriving DecidableEq

/-- `DefaultDercontrol`: a program's default control. -/
structure DefaultDercontrol where
  mrid : Mrid
  base : DercontrolBase
  deriving DecidableEq

/-- `_default_without`: the default with `modes` taken out of it. -/
def defaultWithout (dderc : DefaultDercontrol) (modes : Finset Mode) : DefaultDercontrol :=
  { dderc with base := dderc.base.without modes }

/-! ### Programs and assignments -/

/-- `Derprogram1`: a DERProgram as served. -/
structure Derprogram where
  primacy : Option Nat
  defaultDercontrolLink : Option Href
  dercontrolListLink : Option Href
  dercurveListLink : Option Href
  deriving DecidableEq

/-- `FunctionSetAssignments1`. -/
structure FunctionSetAssignments where
  href : Option Href
  derprogramListLink : Option Href
  deriving DecidableEq

/-- `EndDevice1`. -/
structure EndDevice where
  lfdi : Option Lfdi
  functionSetAssignmentsListLink : Option Href
  deriving DecidableEq

/-- `_extract_href`: an absent link and an empty href both read as no href. -/
def extractHref (link : Option Href) : Option Href := link.filter (fun href => href != "")

end Py20305
