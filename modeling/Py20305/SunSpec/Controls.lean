import Py20305.SunSpec.Modbus

/-!
`Controls` and `SunSpecConnector._apply`: the calls of the control elements.

An element's call enables it with its IEEE 2030.5 value or withdraws it. It becomes one
write of the core; the two power factors share a write, and so do connect and energize.

Left out: ramp times, which the connector ignores, and the entries of a value that no
write uses.
-/

namespace Py20305.SunSpec

open Raising

/-! ### Elements -/

/-- The elements of `CORE_METHOD`. -/
inductive Element where
  | voltVar | voltWatt | wattVar
  | maxLimW | maxLimWInject | maxLimWAbsorb
  | freqDroop | fixedVar | fixedPFInjectW | fixedPFAbsorbW
  | fixedW | targetW | genLimW | loadLimW
  | connect | energize
  deriving DecidableEq, Repr

/-- A quantity with a multiplier. -/
structure Quantity where
  value : ℤ
  multiplier : ℤ
  deriving DecidableEq

/-- `_scaled`. -/
def Quantity.scaled (q : Quantity) : ℚ := q.value * (10 : ℚ) ^ q.multiplier

structure CurveValue where
  curveData : List (ℤ × ℤ)
  xMultiplier : ℤ
  yMultiplier : ℤ
  openLoopTms : Option ℤ
  vRef : Option ℤ
  autonomousVRefEnable : Bool
  autonomousVRefTimeConstant : Option ℤ
  deriving DecidableEq

structure DroopValue where
  dBOF : ℤ
  dBUF : ℤ
  kOF : ℤ
  kUF : ℤ
  openLoopTms : ℤ
  pMin : Option ℤ
  deriving DecidableEq

structure FixedVarValue where
  refType : ℤ
  value : ℤ
  deriving DecidableEq

structure PowerFactorValue where
  displacement : ℤ
  multiplier : ℤ
  excitation : Bool
  deriving DecidableEq

/-- The values of an element. Percents are in hundredths. -/
abbrev Element.Value : Element → Type
  | voltVar | voltWatt | wattVar => CurveValue
  | maxLimW | fixedW => ℤ
  | maxLimWInject | maxLimWAbsorb | targetW | genLimW | loadLimW => Quantity
  | freqDroop => DroopValue
  | fixedVar => FixedVarValue
  | fixedPFInjectW | fixedPFAbsorbW => PowerFactorValue
  | connect | energize => Bool

/-- An element's call: it is enabled with a value, or withdrawn. -/
structure ElementCall where
  element : Element
  value : Option element.Value

/-! ### Core calls -/

/-- A core method with its parameters. -/
inductive CoreCall where
  | qv (params : Option CurveParams)
  | pv (params : Option CurveParams)
  | qp (params : Option CurveParams)
  | pLim (enabled : Bool) (pct : Option Arg)
  | pLimInj (enabled : Bool) (watts : Option Arg)
  | pLimAbs (enabled : Bool) (watts : Option Arg)
  | pf (params : Option DroopParams)
  | constQ (params : Option (ℤ × ℚ))
  | constPf (inj abs : Option PowerFactor)
  | fixedW (params : Option ℚ)
  | targetW (params : Option ℚ)
  | genLim (enabled : Bool) (watts : Option Arg)
  | loadLim (enabled : Bool) (watts : Option Arg)
  | connect (connected : Bool)

def CoreCall.run {σ : Type} (b : Bus σ) : CoreCall → Call σ Unit
  | qv params => updateQv b params
  | pv params => updatePv b params
  | qp params => updateQp b params
  | pLim enabled pct => updatePLim b enabled pct
  | pLimInj enabled watts => updatePLimInj b enabled watts
  | pLimAbs enabled watts => updatePLimAbs b enabled watts
  | pf params => updatePf b params
  | constQ params => updateConstQ b params
  | constPf inj abs => updateConstPf b inj abs
  | fixedW params => updateFixedW b params
  | targetW params => updateTargetW b params
  | genLim enabled watts => updateGenLim b enabled watts
  | loadLim enabled watts => updateLoadLim b enabled watts
  | connect connected => updateConnect b connected

/-! ### Values -/

/-- `_curve_points`, and what `_core_params` adds for volt-var. -/
def CurveValue.params (c : CurveValue) : CurveParams where
  xPts := c.curveData.map fun p => p.1 * (10 : ℚ) ^ c.xMultiplier
  yPts := c.curveData.map fun p => p.2 * (10 : ℚ) ^ c.yMultiplier
  olrt := c.openLoopTms.map fun (tms : ℤ) => (tms : ℚ) / 100
  vref := (c.vRef.map fun (v : ℤ) => (v : ℚ) / 100).getD 0
  vrefAutoEna := c.autonomousVRefEnable
  vrefOlrt := c.autonomousVRefTimeConstant.map fun (tms : ℤ) => (tms : ℚ)

def DroopValue.params (d : DroopValue) : DroopParams where
  dbof := d.dBOF / 1000
  dbuf := d.dBUF / 1000
  kof := d.kOF / 1000
  kuf := d.kUF / 1000
  olrt := d.openLoopTms / 100
  pmin := d.pMin.map fun (v : ℤ) => (v : ℚ)

/-- `_power_factor`: to two decimals. -/
def PowerFactorValue.params (p : PowerFactorValue) : PowerFactor where
  pf := .number (roundHalfEven (p.displacement * (10 : ℚ) ^ p.multiplier * 100) / 100)
  excitation := p.excitation

def percentArg (value : ℤ) : Arg := .number (value / 100)

def Quantity.arg (q : Quantity) : Arg := .number q.scaled

/-- `Controls`: the latest value of each part of a shared write. -/
structure Controls where
  pfInj : Option PowerFactor
  pfAbs : Option PowerFactor
  opModConnect : Bool
  opModEnergize : Bool
  deriving DecidableEq

def Controls.fresh : Controls where
  pfInj := none
  pfAbs := none
  opModConnect := true
  opModEnergize := true

/-- `Controls.translate`. -/
def Controls.translate (c : Controls) : (e : Element) → Option e.Value → Controls × CoreCall
  | .voltVar, value => (c, .qv (value.map CurveValue.params))
  | .voltWatt, value => (c, .pv (value.map CurveValue.params))
  | .wattVar, value => (c, .qp (value.map CurveValue.params))
  | .maxLimW, value => (c, .pLim value.isSome (value.map percentArg))
  | .maxLimWInject, value => (c, .pLimInj value.isSome (value.map Quantity.arg))
  | .maxLimWAbsorb, value => (c, .pLimAbs value.isSome (value.map Quantity.arg))
  | .freqDroop, value => (c, .pf (value.map DroopValue.params))
  | .fixedVar, value => (c, .constQ (value.map fun v => (v.refType, (v.value : ℚ) / 100)))
  | .fixedPFInjectW, value =>
      let c := { c with pfInj := value.map PowerFactorValue.params }
      (c, .constPf c.pfInj c.pfAbs)
  | .fixedPFAbsorbW, value =>
      let c := { c with pfAbs := value.map PowerFactorValue.params }
      (c, .constPf c.pfInj c.pfAbs)
  | .fixedW, value => (c, .fixedW (value.map fun (v : ℤ) => (v : ℚ) / 100))
  | .targetW, value => (c, .targetW (value.map Quantity.scaled))
  | .genLimW, value => (c, .genLim value.isSome (value.map Quantity.arg))
  | .loadLimW, value => (c, .loadLim value.isSome (value.map Quantity.arg))
  | .connect, value =>
      let c := { c with opModConnect := value.getD true }
      (c, .connect (c.opModConnect && c.opModEnergize))
  | .energize, value =>
      let c := { c with opModEnergize := value.getD true }
      (c, .connect (c.opModConnect && c.opModEnergize))

/-! ### The connector -/

/-- A `SunSpecConnector`: its `Controls` and its core. -/
structure Site (σ : Type) where
  controls : Controls
  core : World σ

def Site.fresh {σ : Type} (s : σ) : Site σ where
  controls := .fresh
  core :=
    { core := .fresh
      bus := s
      log := [] }

/-- `SunSpecConnector._apply`: a write that is refused puts the merged state back. -/
def applyElement {σ : Type} (b : Bus σ) (call : ElementCall) : Raising Fault (Site σ) Unit := do
  let before := (← read).controls
  let translated := before.translate call.element call.value
  change fun s => { s with controls := translated.1 }
  (within (·.core) (fun s w => { s with core := w }) (translated.2.run b)).except fun exc => do
    change fun s => { s with controls := before }
    raise exc

end Py20305.SunSpec
