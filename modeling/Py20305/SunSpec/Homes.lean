import Py20305.SunSpec.Controls
import Py20305.SunSpec.Limits

/-!
The registers each control writes.

Every point has a home: the group of controls that write it. A core call changes points
of its own home alone, and of the record what belongs to it (`stays_translate`).
-/

namespace Py20305.SunSpec

open Raising

/-! ### Homes -/

/-- Points that the same controls write. Nothing writes the nameplate. -/
inductive Home where
  | nameplate | limits | charge | service | setpoint | vars | powerFactor
  | curve (c : Curve)
  | droop
  deriving DecidableEq, Repr

def Point.home : Point → Home
  | wMaxRtg | wDisChaRteMaxRtg | wChaRteMaxRtg | wSf => .nameplate
  | wMax | wDisChaRteMax | wMaxLimPctEna | wMaxLimPct => .limits
  | wChaRteMax => .charge
  | es => .service
  | wSetEna | wSetMod | wSet | wSetPct => .setpoint
  | varSetEna | varSetPct | varSetMod | varSetPri => .vars
  | pfwInjEna | pfwInjExt | pfwInjPf | pfwAbsEna | pfwAbsExt | pfwAbsPf => .powerFactor
  | curve c _ => .curve c
  | droop _ => .droop

def Element.home : Element → Home
  | voltVar => .curve .qv
  | voltWatt => .curve .pv
  | wattVar => .curve .qp
  | maxLimW | maxLimWInject | genLimW => .limits
  | maxLimWAbsorb | loadLimW => .charge
  | freqDroop => .droop
  | fixedVar => .vars
  | fixedPFInjectW | fixedPFAbsorbW => .powerFactor
  | fixedW | targetW => .setpoint
  | connect | energize => .service

/-- The points of another home are the same, and so is what another home records. -/
structure Frame (h : Home) (w t : World Values) : Prop where
  points : ∀ p, p.home ≠ h → t.bus p = w.bus p
  implemented : ∀ p, (t.bus p).isSome = (w.bus p).isSome
  slots : h ≠ .limits → t.core.pLimSlots = w.core.pLimSlots
  watts : h ≠ .limits → t.core.genLimWatts = w.core.genLimWatts
  baseline : h ≠ .limits → t.core.wmaxBaseline = w.core.wmaxBaseline
  charges : h ≠ .charge → t.core.chargeLimits = w.core.chargeLimits

variable {h : Home} {α β : Type} {c : Call Values α} {present : ModelId → Bool}
  {capacity : Curve → Nat} {w t u : World Values}

theorem Frame.refl (h : Home) (w : World Values) : Frame h w w :=
  ⟨fun _ _ => rfl, fun _ => rfl, fun _ => rfl, fun _ => rfl, fun _ => rfl, fun _ => rfl⟩

theorem Frame.trans (first : Frame h w t) (second : Frame h t u) : Frame h w u where
  points p other := (second.points p other).trans (first.points p other)
  implemented p := (second.implemented p).trans (first.implemented p)
  slots other := (second.slots other).trans (first.slots other)
  watts other := (second.watts other).trans (first.watts other)
  baseline other := (second.baseline other).trans (first.baseline other)
  charges other := (second.charges other).trans (first.charges other)

theorem Frame.of_core {core : Core} (same : h = .limits ∧ core.chargeLimits = w.core.chargeLimits ∨
    h = .charge ∧ core.pLimSlots = w.core.pLimSlots ∧ core.genLimWatts = w.core.genLimWatts ∧
      core.wmaxBaseline = w.core.wmaxBaseline) : Frame h w { w with core := core } := by
  rcases same with ⟨rfl, charges⟩ | ⟨rfl, slots, watts, baseline⟩
  · exact ⟨fun _ _ => rfl, fun _ => rfl, fun other => absurd rfl other, fun other => absurd rfl other,
      fun other => absurd rfl other, fun _ => charges⟩
  · exact ⟨fun _ _ => rfl, fun _ => rfl, fun _ => slots, fun _ => watts, fun _ => baseline,
      fun other => absurd rfl other⟩

/-- However a call ends, it stays in its home. -/
def Stays (h : Home) (c : Call Values α) : Prop :=
  ∀ w, c.Ends w (fun _ t => Frame h w t) fun _ t => Frame h w t

namespace Stays

theorem pure (a : α) : Stays h (pure a : Call Values α) := Frame.refl h

theorem raise (e : Fault) : Stays h (raise e : Call Values α) := Frame.refl h

theorem read : Stays h (read : Call Values (World Values)) := Frame.refl h

theorem bind {f : α → Call Values β} (first : Stays h c) (second : ∀ a, Stays h (f a)) :
    Stays h (c >>= f) := fun w => by
  rw [ends_bind_iff]
  refine (first w).mono (fun a t frame => (second a t).mono ?_ ?_) fun _ _ frame => frame
  · exact fun _ _ frame' => frame.trans frame'
  · exact fun _ _ frame' => frame.trans frame'

theorem except {handler : Fault → Call Values α} (first : Stays h c)
    (second : ∀ e, Stays h (handler e)) : Stays h (c.except handler) := fun w => by
  rw [ends_except_iff]
  refine (first w).mono (fun _ _ frame => frame) fun e t frame => (second e t).mono ?_ ?_
  · exact fun _ _ frame' => frame.trans frame'
  · exact fun _ _ frame' => frame.trans frame'

theorem ite {P : Prop} [Decidable P] {d : Call Values α} (yes : Stays h c) (no : Stays h d) :
    Stays h (if P then c else d) := by
  split
  · exact yes
  · exact no

theorem readPoint (p : Point) : Stays h (onBus ((deviceBus present capacity).readPoint p)) :=
  Frame.refl h

theorem record {f : Core → Core} (same : ∀ core, (f core).chargeLimits = core.chargeLimits) :
    Stays .limits (record f : Call Values Unit) := fun w => by
  rw [SunSpec.record, ends_change_iff]
  exact .of_core (.inl ⟨rfl, same w.core⟩)

theorem setCharge (slot : ChargeSlot) (watts : Option ℚ) :
    Stays .charge (SunSpec.record (·.setCharge slot watts) : Call Values Unit) := fun w => by
  rw [SunSpec.record, ends_change_iff]
  exact .of_core (.inr ⟨rfl, rfl, rfl, rfl⟩)

theorem note (n : Note) : Stays h (note n : Call Values Unit) := fun _ =>
  ⟨fun _ _ => rfl, fun _ => rfl, fun _ => rfl, fun _ => rfl, fun _ => rfl, fun _ => rfl⟩

theorem asNumber : ∀ arg : Arg, Stays h (asNumber arg : Call Values ℚ)
  | .number _ => pure _
  | .unusable => raise _

theorem requirePercent (pct : Arg) : Stays h (requirePercent pct : Call Values ℚ) :=
  (asNumber pct).bind fun _ => (pure _).ite (raise _)

theorem requireWatts (watts : Arg) : Stays h (requireWatts watts : Call Values ℚ) :=
  (asNumber watts).bind fun _ => (raise _).ite (pure _)

theorem requirePowerFactor (pf : Arg) : Stays h (requirePowerFactor pf : Call Values ℚ) :=
  (asNumber pf).bind fun _ => (pure _).ite (raise _)

theorem requireUint16Watts (watts : ℚ) (wSf : Option ℚ) :
    Stays h (requireUint16Watts watts wSf : Call Values Unit) := by
  cases wSf with
  | none => exact raise _
  | some sf => exact (pure _).ite (raise _)

theorem getModel (mid : ModelId) : Stays h (getModel (deviceBus present capacity) mid) := fun w => by
  rw [ends_getModel_device]
  split <;> exact Frame.refl h w

theorem writePoints {changes : List (Point × ℚ)} (home : ∀ change ∈ changes, change.1.home = h) :
    Stays h (writePoints (deviceBus present capacity) changes) := fun w => by
  rw [ends_writePoints_device]
  refine ⟨fun p other => setAll_of_notMem fun change listed same => other ?_,
    fun _ => isSome_setAll changes, fun _ => rfl, fun _ => rfl, fun _ => rfl, fun _ => rfl⟩
  rw [← same]
  exact home change listed

theorem updateEnable {p : Point} (home : p.home = h) (v : ℚ) :
    Stays h (updateEnable (deviceBus present capacity) p v) :=
  (writePoints (by simpa using home)).bind fun _ =>
    (readPoint p).bind fun _ => (pure _).ite ((readPoint p).bind fun _ => (pure _).ite (raise _))

theorem pollAdoption (result : Point) (polls : Nat) :
    Stays h (pollAdoption (deviceBus present capacity) result polls) := by
  induction polls with
  | zero => exact raise _
  | succ polls ih => exact (readPoint result).bind fun _ => (raise _).ite ((pure _).ite ih)

theorem adopt {request : Point} (home : request.home = h) (result : Point) :
    Stays h (adopt (deviceBus present capacity) request result) :=
  (writePoints (by simpa using home)).bind fun _ => pollAdoption result 5

section Calls

variable (present : ModelId → Bool) (capacity : Curve → Nat)

theorem updateCurve (c : Curve) (fields : CurveParams → List (CurvePoint × ℚ))
    (params : Option CurveParams) :
    Stays (.curve c) (updateCurve (deviceBus present capacity) c fields params) := by
  refine (getModel _).bind fun _ => (updateEnable rfl _).bind fun _ => ?_
  cases params with
  | none => exact pure _
  | some curve =>
      refine (raise _).ite ((raise _).ite ((writePoints fun change listed => ?_).bind fun _ =>
        adopt rfl _))
      obtain ⟨_, _, rfl⟩ := List.mem_map.mp listed
      rfl

theorem updatePf (params : Option DroopParams) :
    Stays .droop (updatePf (deviceBus present capacity) params) := by
  refine (getModel _).bind fun _ => (updateEnable rfl _).bind fun _ => ?_
  cases params with
  | none => exact pure _
  | some droop =>
      refine (writePoints fun change listed => ?_).bind fun _ => adopt rfl _
      obtain ⟨_, _, rfl⟩ := List.mem_map.mp listed
      rfl

theorem writeMergedPct (slot : Slot) :
    Stays .limits (writeMergedPct (deviceBus present capacity) slot) := by
  refine (getModel _).bind fun _ => read.bind fun w => ?_
  cases w.core.computeMergedInjectPct with
  | none => exact updateEnable rfl _
  | some value =>
      exact (raise _).ite <| (updateEnable rfl _).bind fun _ => read.bind fun _ =>
        (note _).bind fun _ => writePoints (by simp [Point.home])

theorem applyInjectPctSlot (slot : Slot) (enabled : Bool) (pct : Option ℚ) :
    Stays .limits (applyInjectPctSlot (deviceBus present capacity) slot enabled pct) :=
  (record (by intro _; rfl)).bind fun _ =>
    (writeMergedPct present capacity slot).bind fun _ => note _

theorem updatePLim (enabled : Bool) (pct : Option Arg) :
    Stays .limits (updatePLim (deviceBus present capacity) enabled pct) := by
  rcases enabled with _ | _
  · exact applyInjectPctSlot present capacity _ _ _
  · rcases pct with _ | pct
    · exact applyInjectPctSlot present capacity _ _ _
    · exact (requirePercent _).bind fun _ => applyInjectPctSlot present capacity _ _ _

theorem wattsAsPctOfWmax (watts : ℚ) :
    Stays h (wattsAsPctOfWmax (deviceBus present capacity) watts) :=
  (getModel _).bind fun _ => pure _

theorem applyGenLimSlot (watts pct : Option ℚ) :
    Stays .limits (applyGenLimSlot (deviceBus present capacity) watts pct) :=
  read.bind fun _ => (((applyInjectPctSlot present capacity _ _ _).except fun _ =>
    (record (by intro _; rfl)).bind fun _ => raise _)).bind fun _ =>
      record (by intro _; rfl)

theorem refreshGenLimPct : Stays .limits (refreshGenLimPct (deviceBus present capacity)) := by
  refine read.bind fun w => ?_
  cases w.core.genLimWatts with
  | none => exact pure _
  | some watts =>
      refine (wattsAsPctOfWmax present capacity watts).bind fun pct => ?_
      cases pct with
      | none => exact pure _
      | some pct => exact applyGenLimSlot present capacity _ _

theorem updateGenLim (enabled : Bool) (watts : Option Arg) :
    Stays .limits (updateGenLim (deviceBus present capacity) enabled watts) := by
  rcases enabled with _ | _
  · refine read.bind fun w => ?_
    have cleared : Stays .limits (SunSpec.record fun core => { core with genLimWatts := none } :
        Call Values Unit) := record fun _ => rfl
    exact ((applyGenLimSlot present capacity none none).bind fun _ => cleared).ite cleared
  · rcases watts with _ | watts
    · exact pure _
    · refine (requireWatts _).bind fun value => (wattsAsPctOfWmax present capacity value).bind
        fun pct => ?_
      cases pct with
      | none => exact raise _
      | some pct => exact applyGenLimSlot present capacity _ _

/-- The mirror writes WMax alone. -/
theorem mirrorInjectOntoWmax (model702 : Values) (watts : ℚ) (w : World Values) :
    (mirrorInjectOntoWmax model702 watts).Ends w
      (fun changes t => Frame .limits w t ∧ ∀ change ∈ changes, change.1 = .wMax)
      fun _ t => Frame .limits w t := by
  unfold SunSpec.mirrorInjectOntoWmax
  cases model702 .wMax with
  | none => exact ⟨Frame.refl .limits w, nofun⟩
  | some wmax =>
      simp only [SunSpec.record, ends_bind_iff, ends_change_iff]
      cases (model702 .wMaxRtg).filter (· ≠ 0) with
      | none => exact ⟨.of_core (.inl ⟨rfl, rfl⟩), by simp⟩
      | some rtg => exact ⟨.of_core (.inl ⟨rfl, rfl⟩), by simp⟩

theorem applyInject (model702 : Values) (watts : ℚ) :
    Stays .limits (applyInject (deviceBus present capacity) model702 watts) := by
  refine (requireUint16Watts watts _).bind fun _ => fun w => ?_
  rw [ends_bind_iff]
  refine (mirrorInjectOntoWmax model702 watts w).mono (fun changes t mirrored => ?_)
    fun _ _ frame => frame
  obtain ⟨frame, onlyWMax⟩ := mirrored
  have rest : Stays .limits (do
      SunSpec.writePoints (deviceBus present capacity) ((.wDisChaRteMax, watts) :: changes)
      SunSpec.record fun core => { core with pLimWInj := some watts }
      SunSpec.refreshGenLimPct (deviceBus present capacity)) := by
    refine (writePoints fun change listed => ?_).bind fun _ => (record (by intro _; rfl)).bind
      fun _ => refreshGenLimPct present capacity
    rcases List.mem_cons.mp listed with rfl | listed
    · rfl
    · rw [onlyWMax change listed]
      rfl
  exact (rest t).mono (fun _ _ frame' => frame.trans frame') fun _ _ frame' => frame.trans frame'

theorem restoreMirroredWmax : Stays .limits (restoreMirroredWmax (deviceBus present capacity)) := by
  refine read.bind fun w => ?_
  cases w.core.wmaxBaseline with
  | none => exact pure _
  | some baseline =>
      exact (getModel _).bind fun _ => (writePoints (by simp [Point.home])).bind fun _ =>
        (refreshGenLimPct present capacity).bind fun _ => record (by intro _; rfl)

theorem clearInject (enabled : Bool) :
    Stays .limits (clearInject (deviceBus present capacity) enabled) :=
  (record (by intro _; rfl)).bind fun _ => (restoreMirroredWmax present capacity).bind fun _ =>
    read.bind fun _ => (applyInjectPctSlot present capacity _ _ _).ite (pure _)

theorem applyInjectWithoutRegister (watts : ℚ) :
    Stays .limits (applyInjectWithoutRegister (deviceBus present capacity) watts) := by
  refine (record (by intro _; rfl)).bind fun _ => (wattsAsPctOfWmax present capacity watts).bind
    fun pct => ?_
  cases pct with
  | none => exact pure _
  | some pct => exact applyInjectPctSlot present capacity _ _ _

theorem updatePLimInj (enabled : Bool) (watts : Option Arg) :
    Stays .limits (updatePLimInj (deviceBus present capacity) enabled watts) := by
  rcases enabled with _ | _
  · exact clearInject present capacity false
  · rcases watts with _ | watts
    · exact clearInject present capacity true
    · exact (requireWatts _).bind fun _ => (getModel _).bind fun _ =>
        (applyInject present capacity _ _).ite (applyInjectWithoutRegister present capacity _)

theorem chargeRate (active : List ℚ) (model : Values) :
    Stays .charge (match rateSettingIsSupported model .abs, model .wChaRteMaxRtg with
      | true, some rating => do
          let target := match active.min? with
            | some low => min low rating
            | none => rating
          SunSpec.requireUint16Watts target (model .wSf)
          SunSpec.writePoints (deviceBus present capacity) [(.wChaRteMax, target)]
      | _, _ => Pure.pure () : Call Values Unit) := by
  split
  · exact (requireUint16Watts _ _).bind fun _ => writePoints (by simp [Point.home])
  · exact pure _

theorem setChargeLimit (slot : ChargeSlot) (watts : Option ℚ) (model702 : Option Values) :
    Stays .charge (setChargeLimit (deviceBus present capacity) slot watts model702) := by
  refine read.bind fun _ => (setCharge slot watts).bind fun _ => read.bind fun w =>
    except ?_ fun _ => (setCharge slot _).bind fun _ => raise _
  cases model702 with
  | some model => exact (pure model).bind (chargeRate present capacity w.core.activeCharges)
  | none => exact (getModel .m702).bind (chargeRate present capacity w.core.activeCharges)

theorem updateLoadLim (enabled : Bool) (watts : Option Arg) :
    Stays .charge (updateLoadLim (deviceBus present capacity) enabled watts) := by
  rcases enabled with _ | _
  · cases watts <;> exact setChargeLimit present capacity _ none none
  · rcases watts with _ | watts
    · exact pure _
    · exact (requireWatts _).bind fun _ => (getModel _).bind fun _ =>
        (setChargeLimit present capacity _ _ _).ite (raise _)

theorem updatePLimAbs (enabled : Bool) (watts : Option Arg) :
    Stays .charge (updatePLimAbs (deviceBus present capacity) enabled watts) := by
  rcases enabled with _ | _
  · cases watts <;> exact setChargeLimit present capacity _ none none
  · rcases watts with _ | watts
    · exact pure _
    · exact (requireWatts _).bind fun _ => (getModel _).bind fun _ =>
        (setChargeLimit present capacity _ _ _).ite (pure _)

theorem updateConstQ (params : Option (ℤ × ℚ)) :
    Stays .vars (updateConstQ (deviceBus present capacity) params) := by
  refine (getModel _).bind fun _ => ?_
  rcases params with _ | ⟨refType, pct⟩
  · exact updateEnable rfl _
  · simp only
    cases varSetMod refType with
    | none => exact pure _
    | some mod =>
        exact (raise _).ite ((updateEnable rfl _).bind fun _ => writePoints (by simp [Point.home]))

theorem updateFixedW (params : Option ℚ) :
    Stays .setpoint (updateFixedW (deviceBus present capacity) params) := by
  refine (getModel _).bind fun _ => ?_
  cases params with
  | none => exact updateEnable rfl _
  | some wSet =>
      exact (raise _).ite ((updateEnable rfl _).bind fun _ => writePoints (by simp [Point.home]))

theorem updateTargetW (params : Option ℚ) :
    Stays .setpoint (updateTargetW (deviceBus present capacity) params) := by
  refine (getModel _).bind fun _ => ?_
  cases params with
  | none => exact updateEnable rfl _
  | some watts =>
      refine ite ((updateEnable rfl _).bind fun _ => writePoints (by simp [Point.home]))
        (ite ((wattsAsPctOfWmax present capacity _).bind fun pct => ?_) (raise _))
      cases pct with
      | none => exact pure _
      | some pct =>
          exact (updateEnable rfl _).bind fun _ => writePoints (by simp [Point.home])

theorem updatePfSide (model : Values) {enable ext pf : Point} (control : String) (overExcited : ℚ)
    (side : Option PowerFactor) (home : enable.home = h ∧ ext.home = h ∧ pf.home = h) :
    Stays h (updatePfSide (deviceBus present capacity) model enable ext pf control overExcited
      side) := by
  cases side with
  | none => exact (updateEnable home.1 _).ite (pure _)
  | some factor =>
      exact (requirePowerFactor _).bind fun _ => (raise _).ite <|
        (updateEnable home.1 _).bind fun _ => writePoints (by simp [home.2.1, home.2.2])

theorem updateConstPf (inj abs : Option PowerFactor) :
    Stays .powerFactor (updateConstPf (deviceBus present capacity) inj abs) :=
  (getModel _).bind fun _ =>
    (updatePfSide present capacity _ _ _ _ (by exact ⟨rfl, rfl, rfl⟩)).bind fun _ =>
      updatePfSide present capacity _ _ _ _ (by exact ⟨rfl, rfl, rfl⟩)

theorem updateConnect (connected : Bool) :
    Stays .service (updateConnect (deviceBus present capacity) connected) :=
  ((getModel _).bind fun _ => updateEnable rfl _).ite (raise _)

end Calls

end Stays

/-- A core call stays in the home of the element it is made for. -/
theorem stays_translate (present : ModelId → Bool) (capacity : Curve → Nat) (controls : Controls)
    (call : ElementCall) : Stays call.element.home
      ((controls.translate call.element call.value).2.run (deviceBus present capacity)) := by
  obtain ⟨e, value⟩ := call
  cases e with
  | voltVar => exact .updateCurve present capacity .qv qvFields _
  | voltWatt => exact .updateCurve present capacity .pv pvFields _
  | wattVar => exact .updateCurve present capacity .qp qpFields _
  | maxLimW => exact .updatePLim present capacity _ _
  | maxLimWInject => exact .updatePLimInj present capacity _ _
  | maxLimWAbsorb => exact .updatePLimAbs present capacity _ _
  | freqDroop => exact .updatePf present capacity _
  | fixedVar => exact .updateConstQ present capacity _
  | fixedPFInjectW => exact .updateConstPf present capacity _ _
  | fixedPFAbsorbW => exact .updateConstPf present capacity _ _
  | fixedW => exact .updateFixedW present capacity _
  | targetW => exact .updateTargetW present capacity _
  | genLimW => exact .updateGenLim present capacity _ _
  | loadLimW => exact .updateLoadLim present capacity _ _
  | connect => exact .updateConnect present capacity _
  | energize => exact .updateConnect present capacity _

end Py20305.SunSpec
