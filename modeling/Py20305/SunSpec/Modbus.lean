import Py20305.Lib.Rounding
import Py20305.SunSpec.Registers

/-!
`SunSpecModbusConnector`: the writes of its controls.

A function is a `Call`: it returns or raises, over the connector's record, the bus
and a log. The log notes what is written to WMaxLimPct and what has been applied there.
-/

namespace Py20305.SunSpec

/-! ### Arguments -/

/-- A value a control carries. -/
inductive Arg where
  | number (q : ℚ)
  /-- Not a finite number, or none of a numeric type. -/
  | unusable
  deriving DecidableEq

def Arg.toNumber : Arg → Option ℚ
  | .number q => some q
  | .unusable => none

/-- `10**w_sf`. -/
def powerOfTen (sf : ℚ) : ℚ := (10 : ℚ) ^ sf.num

/-- The fixed power factor of one side. -/
structure PowerFactor where
  pf : Arg
  excitation : Bool
  deriving DecidableEq

/-- A curve, as the core's parameters carry it. -/
structure CurveParams where
  xPts : List ℚ
  yPts : List ℚ
  olrt : Option ℚ
  vref : ℚ := 0
  vrefAutoEna : Bool := false
  vrefOlrt : Option ℚ := none
  deriving DecidableEq

/-- The frequency droop, as the core's parameters carry it. -/
structure DroopParams where
  dbof : ℚ
  dbuf : ℚ
  kof : ℚ
  kuf : ℚ
  olrt : ℚ
  pmin : Option ℚ
  deriving DecidableEq

/-! ### The connector -/

/-- The controls that share WMaxLimPct: opModMaxLimW, opModMaxLimWInject and opModGenLimW. -/
inductive Slot where
  | any | inj | gen
  deriving DecidableEq, Repr

/-- `_P_LIM_PCT_CONTROLS`. -/
def Slot.control : Slot → String
  | any => "opModMaxLimW"
  | inj => "opModMaxLimWInject"
  | gen => "opModGenLimW"

/-- The limits that share WChaRteMax: opModMaxLimWAbsorb and opModLoadLimW. -/
inductive ChargeSlot where
  | abs | load
  deriving DecidableEq, Repr

/-- The directions of `_P_LIM_W_CONTROLS`. -/
inductive Direction where
  | inj | abs
  deriving DecidableEq, Repr

namespace Direction

def control : Direction → String
  | inj => "opModMaxLimWInject"
  | abs => "opModMaxLimWAbsorb"

/-- The rate setting of a direction. -/
def setting : Direction → Point
  | inj => .wDisChaRteMax
  | abs => .wChaRteMax

/-- `_P_LIM_W_RATINGS`. -/
def rating : Direction → Point
  | inj => .wDisChaRteMaxRtg
  | abs => .wChaRteMaxRtg

end Direction

/-- What the connector records. -/
structure Core where
  /-- `_p_lim_slots`: whether a limit is enabled, and its percent. -/
  pLimSlots : Slot → Bool × Option ℚ
  genLimWatts : Option ℚ
  genLimUnconfirmed : Bool
  /-- `_p_lim_w_settings["inj"]`. -/
  pLimWInj : Option ℚ
  chargeLimits : ChargeSlot → Option ℚ
  wmaxBaseline : Option ℚ

/-- A connector before its first control. -/
def Core.fresh : Core where
  pLimSlots _ := (false, none)
  genLimWatts := none
  genLimUnconfirmed := false
  pLimWInj := none
  chargeLimits _ := none
  wmaxBaseline := none

namespace Core

variable (core : Core)

/-- The percent a slot contributes to the merge. -/
def active (slot : Slot) : Option ℚ :=
  if (core.pLimSlots slot).1 then (core.pLimSlots slot).2 else none

def setSlot (slot : Slot) (limit : Bool × Option ℚ) : Core :=
  { core with pLimSlots := Function.update core.pLimSlots slot limit }

def setCharge (slot : ChargeSlot) (watts : Option ℚ) : Core :=
  { core with chargeLimits := Function.update core.chargeLimits slot watts }

/-- The watts of the charge limits that are active. -/
def activeCharges : List ℚ := [core.chargeLimits .abs, core.chargeLimits .load].reduceOption

end Core

/-- The least of the limits that are there. -/
def least (limits : Slot → Option ℚ) : Option ℚ :=
  [limits .any, limits .inj, limits .gen].reduceOption.min?

/-- `_compute_merged_inject_pct`; `none` where no slot is active. -/
def Core.computeMergedInjectPct (core : Core) : Option ℚ := least core.active

/-- What the log notes: a value written to WMaxLimPct for the limit a slot was called with,
and a slot's limit that went through. -/
inductive Note where
  | wrote (slot : Slot) (limit : Option ℚ) (value : ℚ)
  | applied (slot : Slot) (limit : Option ℚ)
  deriving DecidableEq

/-- The connector, its bus and the log, newest first. -/
structure World (σ : Type) where
  core : Core
  bus : σ
  log : List Note

variable {σ : Type}

/-- A function of the connector. -/
abbrev Call (σ α : Type) : Type := Raising Fault (World σ) α

open Raising

/-- Change the connector's record. -/
def record (f : Core → Core) : Call σ Unit := change fun w => { w with core := f w.core }

def note (n : Note) : Call σ Unit := change fun w => { w with log := n :: w.log }

/-- A request on the bus. -/
def onBus {α : Type} (request : Raising Fault σ α) : Call σ α :=
  within (·.bus) (fun w s => { w with bus := s }) request

/-! ### Values -/

/-- `_as_number`. -/
def asNumber : Arg → Call σ ℚ
  | .number q => pure q
  | .unusable => raise .value

/-- `_require_percent`. -/
def requirePercent (pct : Arg) : Call σ ℚ := do
  let value ← asNumber pct
  if 0 ≤ value ∧ value ≤ 100 then pure value else raise .value

/-- `_require_watts`. -/
def requireWatts (watts : Arg) : Call σ ℚ := do
  let value ← asNumber watts
  if value < 0 then raise .value else pure value

/-- `_require_power_factor`. -/
def requirePowerFactor (pf : Arg) : Call σ ℚ := do
  let value ← asNumber pf
  if 0 ≤ value ∧ value ≤ 1 then pure value else raise .value

/-- `_require_uint16_watts`. -/
def requireUint16Watts (watts : ℚ) (wSf : Option ℚ) : Call σ Unit :=
  match wSf with
  | none => raise .other
  | some sf =>
      let raw := roundHalfEven (watts / powerOfTen sf)
      if 0 ≤ raw ∧ raw ≤ 65535 then pure () else raise .value

/-- `_unimplemented_points`. -/
def unimplementedPoints (model : Values) (points : List Point) : List Point :=
  points.filter fun p => (model p).isNone

/-- `_rate_setting_is_supported`. -/
def rateSettingIsSupported (model702 : Values) (d : Direction) : Bool :=
  (model702 d.setting).isSome && (model702 d.rating).any (· ≠ 0)

/-- The watts that are 100 percent: WMax, or WMaxRtg where that is none or zero. -/
def percentBase (model702 : Values) : Option ℚ :=
  ((model702 .wMax).filter (· ≠ 0)).or ((model702 .wMaxRtg).filter (· ≠ 0))

/-- A percent, held to 100 in magnitude. -/
def clampPct (pct : ℚ) : ℚ := if |pct| > 100 then if 0 < pct then 100 else -100 else pct

/-- Watts as a percent of WMax. -/
def pctOf (model702 : Values) (watts : ℚ) : Option ℚ :=
  (percentBase model702).map fun wmax => clampPct (watts / wmax * 100)

/-- `_control_unsupported`. -/
def controlUnsupported {α : Type} (control : String) : Call σ α := raise (.modeNotSupported control)

section Functions

variable (b : Bus σ)

/-! ### Requests -/

/-- `_get_model`. -/
def getModel (mid : ModelId) : Call σ Values :=
  if b.present mid then
    (onBus (b.readModel mid)).except fun exc =>
      if exc.isPermanentModbusError then raise (.connection true)
      else do
        (onBus b.reconnect).except fun _ => raise (.connection false)
        (onBus (b.readModel mid)).except fun _ => raise (.connection false)
  else raise (.connection false)

def writePoints (changes : List (Point × ℚ)) : Call σ Unit := onBus (b.write changes)

/-- `_update_enable`. -/
def updateEnable (point : Point) (value : ℚ) : Call σ Unit := do
  writePoints b [(point, value)]
  let first ← onBus (b.readPoint point)
  if first = some value then pure ()
  else do
    let second ← onBus (b.readPoint point)
    if second = some value then pure () else raise .write

/-- `_adopt_curve` and `_adopt_control`: the polls of the result. -/
def pollAdoption (result : Point) : Nat → Call σ Unit
  | 0 => raise .timeout
  | polls + 1 => do
      let answer ← onBus (b.readPoint result)
      if answer = some 2 then raise .write
      else if answer = some 1 then pure ()
      else pollAdoption result polls

/-- `_adopt_curve` and `_adopt_control`. -/
def adopt (request result : Point) : Call σ Unit := do
  writePoints b [(request, 2)]
  pollAdoption b result 5

/-! ### Curves and droop -/

/-- What a curve sets: the number of its points, the fields, and the points. -/
def curveWrites (fields : CurveParams → List (CurvePoint × ℚ)) (curve : CurveParams) :
    List (CurvePoint × ℚ) :=
  (CurvePoint.actPt, (curve.xPts.length : ℚ)) :: fields curve ++
    curve.xPts.mapIdx (fun i v => (CurvePoint.x i, v)) ++
    curve.yPts.mapIdx (fun i v => (CurvePoint.y i, v))

/-- `_update_qv_sync`, `_update_pv_sync` and `_update_qp_sync`: the three curves differ in the
fields they set. -/
def updateCurve (c : Curve) (fields : CurveParams → List (CurvePoint × ℚ))
    (params : Option CurveParams) : Call σ Unit := do
  let _ ← getModel b c.model
  updateEnable b (.curve c .ena) (if params.isSome then 1 else 0)
  match params with
  | none => pure ()
  | some curve =>
      if b.capacity c < curve.xPts.length then raise .write
      else if curve.xPts.length ≠ curve.yPts.length then raise .other
      else do
        writePoints b ((curveWrites fields curve).map fun change => (.curve c change.1, change.2))
        adopt b (.curve c .adptCrvReq) (.curve c .adptCrvRslt)

def qvFields (curve : CurveParams) : List (CurvePoint × ℚ) :=
  [(.deptRef, 3), (.pri, 1), (.vRef, curve.vref), (.vRefAutoEna, if curve.vrefAutoEna then 1 else 0),
    (.vRefAutoTms, curve.vrefOlrt.getD 0), (.rspTms, curve.olrt.getD 0)]

def pvFields (curve : CurveParams) : List (CurvePoint × ℚ) :=
  [(.deptRef, 0), (.rspTms, curve.olrt.getD 0)]

def qpFields (_ : CurveParams) : List (CurvePoint × ℚ) := [(.deptRef, 3)]

/-- `_update_qv_sync`. -/
def updateQv : Option CurveParams → Call σ Unit := updateCurve b .qv qvFields

/-- `_update_pv_sync`. -/
def updatePv : Option CurveParams → Call σ Unit := updateCurve b .pv pvFields

/-- `_update_qp_sync`. -/
def updateQp : Option CurveParams → Call σ Unit := updateCurve b .qp qpFields

def droopFields (droop : DroopParams) : List (DroopPoint × ℚ) :=
  [(.rspTms, droop.olrt), (.dbOf, droop.dbof), (.dbUf, droop.dbuf), (.kOf, droop.kof),
    (.kUf, droop.kuf)] ++ (droop.pmin.map fun v => (.pMin, v)).toList

/-- `_update_pf_sync`. -/
def updatePf (params : Option DroopParams) : Call σ Unit := do
  let _ ← getModel b .m711
  updateEnable b (.droop .ena) (if params.isSome then 1 else 0)
  match params with
  | none => pure ()
  | some droop => do
      writePoints b ((droopFields droop).map fun change => (.droop change.1, change.2))
      adopt b (.droop .adptCtlReq) (.droop .adptCtlRslt)

/-! ### Limits on WMaxLimPct -/

/-- `_apply_inject_pct_slot`, from where the slot is stored. -/
def writeMergedPct (slot : Slot) : Call σ Unit := do
  let model ← getModel b .m704
  match (← read).core.computeMergedInjectPct with
  | none => updateEnable b .wMaxLimPctEna 0
  | some value =>
      if unimplementedPoints model [.wMaxLimPct] ≠ [] then controlUnsupported slot.control
      else do
        updateEnable b .wMaxLimPctEna 1
        note (.wrote slot ((← read).core.active slot) value)
        writePoints b [(.wMaxLimPct, value)]

/-- `_apply_inject_pct_slot`. -/
def applyInjectPctSlot (slot : Slot) (enabled : Bool) (pct : Option ℚ) : Call σ Unit := do
  record (·.setSlot slot (enabled, pct))
  writeMergedPct b slot
  note (.applied slot (if enabled then pct else none))

/-- `_update_p_lim_sync`. -/
def updatePLim (enabled : Bool) (pLimW : Option Arg) : Call σ Unit :=
  match enabled, pLimW with
  | true, some pct => do
      let value ← requirePercent pct
      applyInjectPctSlot b .any true (some value)
  | true, none => applyInjectPctSlot b .any true none
  | false, stale => applyInjectPctSlot b .any false (stale.bind Arg.toNumber)

/-- `_watts_as_pct_of_wmax`. -/
def wattsAsPctOfWmax (watts : ℚ) : Call σ (Option ℚ) := do
  let model702 ← getModel b .m702
  pure (pctOf model702 watts)

/-- `_apply_gen_lim_slot`. -/
def applyGenLimSlot (watts pct : Option ℚ) : Call σ Unit := do
  let previous := (← read).core.pLimSlots .gen
  (applyInjectPctSlot b .gen watts.isSome pct).except fun exc => do
    record fun core => { core.setSlot .gen previous with genLimUnconfirmed := true }
    raise exc
  record fun core => { core with genLimUnconfirmed := false, genLimWatts := watts }

/-- `_refresh_gen_lim_pct`. -/
def refreshGenLimPct : Call σ Unit := do
  match (← read).core.genLimWatts with
  | none => pure ()
  | some watts => do
      match ← wattsAsPctOfWmax b watts with
      | none => pure ()
      | some pct => applyGenLimSlot b (some watts) (some pct)

/-- `_update_gen_lim_sync`. -/
def updateGenLim (enabled : Bool) (genLimW : Option Arg) : Call σ Unit :=
  match enabled, genLimW with
  | true, none => pure ()
  | false, _ => do
      let core := (← read).core
      if core.pLimSlots .gen ≠ (false, none) ∨ core.genLimUnconfirmed = true then
        applyGenLimSlot b none none
      record fun core => { core with genLimWatts := none }
  | true, some watts => do
      let value ← requireWatts watts
      match ← wattsAsPctOfWmax b value with
      | none => controlUnsupported "opModGenLimW"
      | some pct => applyGenLimSlot b (some value) (some pct)

/-! ### Limits on the rate settings -/

/-- `_set_charge_limit`. -/
def setChargeLimit (slot : ChargeSlot) (watts : Option ℚ) (model702 : Option Values) :
    Call σ Unit := do
  let previous := (← read).core.chargeLimits slot
  record (·.setCharge slot watts)
  let active := (← read).core.activeCharges
  Raising.except
    (do
      let model ← match model702 with
        | some model => pure model
        | none => getModel b .m702
      match rateSettingIsSupported model .abs, model .wChaRteMaxRtg with
      | true, some rating => do
          let target := match active.min? with
            | some low => min low rating
            | none => rating
          requireUint16Watts target (model .wSf)
          writePoints b [(.wChaRteMax, target)]
      | _, _ => pure ())
    fun exc => do
      record (·.setCharge slot previous)
      raise exc

/-- `_update_load_lim_sync`. -/
def updateLoadLim (enabled : Bool) (loadLimW : Option Arg) : Call σ Unit :=
  match enabled, loadLimW with
  | true, none => pure ()
  | false, _ => setChargeLimit b .load none none
  | true, some watts => do
      let value ← requireWatts watts
      let model702 ← getModel b .m702
      if rateSettingIsSupported model702 .abs then setChargeLimit b .load (some value) (some model702)
      else controlUnsupported "opModLoadLimW"

/-- `_mirror_inject_onto_wmax`: what it writes beside the limit. -/
def mirrorInjectOntoWmax (model702 : Values) (watts : ℚ) : Call σ (List (Point × ℚ)) :=
  match model702 .wMax with
  | none => pure []
  | some wmax => do
      record fun core => { core with wmaxBaseline := core.wmaxBaseline.or (some wmax) }
      match (model702 .wMaxRtg).filter (· ≠ 0) with
      | some rtg => pure [(.wMax, min watts rtg)]
      | none => pure [(.wMax, watts)]

/-- `_restore_mirrored_wmax`. -/
def restoreMirroredWmax : Call σ Unit := do
  match (← read).core.wmaxBaseline with
  | none => pure ()
  | some baseline => do
      let _ ← getModel b .m702
      writePoints b [(.wMax, baseline)]
      refreshGenLimPct b
      record fun core => { core with wmaxBaseline := none }

/-- `_apply_p_lim_w_without_register`, of an inject limit. An absorb limit has nowhere to go. -/
def applyInjectWithoutRegister (watts : ℚ) : Call σ Unit := do
  record fun core => { core with pLimWInj := none }
  match ← wattsAsPctOfWmax b watts with
  | none => pure ()
  | some pct => applyInjectPctSlot b .inj true (some pct)

/-- `_update_p_lim_w_sync`, of opModMaxLimWInject without a value to apply. -/
def clearInject (enabled : Bool) : Call σ Unit := do
  record fun core => { core with pLimWInj := none }
  restoreMirroredWmax b
  if (← read).core.pLimSlots .inj ≠ (false, none) then applyInjectPctSlot b .inj enabled none

/-- `_update_p_lim_w_sync`, of an opModMaxLimWInject that WDisChaRteMax takes. -/
def applyInject (model702 : Values) (watts : ℚ) : Call σ Unit := do
  requireUint16Watts watts (model702 .wSf)
  let mirrored ← mirrorInjectOntoWmax model702 watts
  writePoints b ((.wDisChaRteMax, watts) :: mirrored)
  record fun core => { core with pLimWInj := some watts }
  refreshGenLimPct b

/-- `_update_p_lim_w_sync`, of opModMaxLimWInject. -/
def updatePLimInj (enabled : Bool) (pLimWatts : Option Arg) : Call σ Unit :=
  match enabled, pLimWatts with
  | true, some watts => do
      let value ← requireWatts watts
      let model702 ← getModel b .m702
      if rateSettingIsSupported model702 .inj then applyInject b model702 value
      else applyInjectWithoutRegister b value
  | enabled, _ => clearInject b enabled

/-- `_update_p_lim_w_sync`, of opModMaxLimWAbsorb. -/
def updatePLimAbs (enabled : Bool) (pLimWatts : Option Arg) : Call σ Unit :=
  match enabled, pLimWatts with
  | true, some watts => do
      let value ← requireWatts watts
      let model702 ← getModel b .m702
      if rateSettingIsSupported model702 .abs then setChargeLimit b .abs (some value) (some model702)
      else pure ()
  | true, none => pure ()
  | false, _ => setChargeLimit b .abs none none

/-! ### Setpoints -/

/-- The SunSpec VarSetMod of a DERUnitRefType. -/
def varSetMod : ℤ → Option ℚ
  | 2 => some 1
  | 3 => some 2
  | 8 => some 3
  | _ => none

/-- `_update_const_q_sync`, with a reference type and a percent. -/
def updateConstQ (params : Option (ℤ × ℚ)) : Call σ Unit := do
  let model ← getModel b .m704
  match params with
  | none => updateEnable b .varSetEna 0
  | some (refType, pct) =>
      match varSetMod refType with
      | none => pure ()
      | some mod =>
          if unimplementedPoints model [.varSetPct, .varSetMod, .varSetPri] ≠ [] then
            controlUnsupported "opModFixedVar"
          else do
            updateEnable b .varSetEna 1
            writePoints b [(.varSetPct, pct), (.varSetMod, mod), (.varSetPri, 1)]

/-- `_update_fixed_w_sync`, with a percent. -/
def updateFixedW (params : Option ℚ) : Call σ Unit := do
  let model ← getModel b .m704
  match params with
  | none => updateEnable b .wSetEna 0
  | some wSet =>
      if unimplementedPoints model [.wSetMod, .wSetPct] ≠ [] then controlUnsupported "opModFixedW"
      else do
        updateEnable b .wSetEna 1
        writePoints b [(.wSetMod, 0), (.wSetPct, wSet)]

/-- `_update_target_w_sync`, with watts. -/
def updateTargetW (params : Option ℚ) : Call σ Unit := do
  let model ← getModel b .m704
  match params with
  | none => updateEnable b .wSetEna 0
  | some watts =>
      if unimplementedPoints model [.wSetMod, .wSet] = [] then do
        updateEnable b .wSetEna 1
        writePoints b [(.wSetMod, 1), (.wSet, watts)]
      else if unimplementedPoints model [.wSetMod, .wSetPct] = [] then do
        match ← wattsAsPctOfWmax b watts with
        | none => pure ()
        | some pct => do
            updateEnable b .wSetEna 1
            writePoints b [(.wSetMod, 0), (.wSetPct, pct)]
      else controlUnsupported "opModTargetW"

/-- One side of `_update_const_pf_sync`. -/
def updatePfSide (model : Values) (enable ext pf : Point) (control : String) (overExcited : ℚ)
    (side : Option PowerFactor) : Call σ Unit :=
  match side with
  | some factor => do
      let value ← requirePowerFactor factor.pf
      let exc := if factor.excitation then overExcited else 1 - overExcited
      if unimplementedPoints model [ext, pf] ≠ [] then controlUnsupported control
      else do
        updateEnable b enable 1
        writePoints b [(ext, exc), (pf, value)]
  | none =>
      if unimplementedPoints model [enable] = [] then updateEnable b enable 0 else pure ()

/-- `_update_const_pf_sync`. -/
def updateConstPf (inj abs : Option PowerFactor) : Call σ Unit := do
  let model ← getModel b .m704
  updatePfSide b model .pfwInjEna .pfwInjExt .pfwInjPf "opModFixedPFInjectW" 0 inj
  updatePfSide b model .pfwAbsEna .pfwAbsExt .pfwAbsPf "opModFixedPFAbsorbW" 1 abs

/-- `_update_connect_sync`. -/
def updateConnect (connected : Bool) : Call σ Unit :=
  if b.present .m703 then do
    let _ ← getModel b .m703
    updateEnable b .es (if connected then 1 else 0)
  else controlUnsupported "opModConnect"

end Functions

end Py20305.SunSpec
