import Mathlib.Data.List.Nodup
import Py20305.SunSpec.Homes

/-!
What each control writes.

One lemma for each core call: what the registers of its home show where it returns.
-/

namespace Py20305.SunSpec

open Raising

/-! ### Writes -/

/-- Each point written is implemented and holds its value, if no point is written twice. -/
theorem setAll_of_mem {values : Values} {changes : List (Point × ℚ)} {p : Point} {v : ℚ}
    (once : (changes.map Prod.fst).Nodup) (written : (p, v) ∈ changes)
    (there : (values p).isSome) : values.setAll changes p = some v := by
  induction changes generalizing values with
  | nil => cases written
  | cons change rest ih =>
      rw [List.map_cons, List.nodup_cons] at once
      rw [Values.setAll, List.foldl_cons, ← Values.setAll]
      rcases List.mem_cons.mp written with rfl | later
      · rw [setAll_of_notMem, set_of_isSome there]
        intro change listed same
        exact once.1 (List.mem_map.mpr ⟨change, listed, same⟩)
      · refine ih once.2 later ?_
        by_cases same : p = change.1
        · rw [same, set_self, Option.isSome_map, ← same]
          exact there
        · rwa [set_of_ne values change.2 same]

section Calls

variable {present : ModelId → Bool} {capacity : Curve → Nat} {w : World Values}

theorem gives_pollAdoption (result : Point) (polls : Nat) (w : World Values) :
    Gives (pollAdoption (deviceBus present capacity) result polls) w (· = w) := by
  induction polls with
  | zero => trivial
  | succ polls ih =>
      simp only [pollAdoption, ends_bind_iff, ends_readPoint_device, ends_ite_iff, ends_raise_iff,
        ends_pure_iff]
      exact ⟨fun _ => trivial, fun _ => ⟨fun _ => trivial, fun _ => ih⟩⟩

theorem gives_adopt (request result : Point) (w : World Values) :
    Gives (adopt (deviceBus present capacity) request result) w fun t =>
      t.bus = w.bus.set request 2 := by
  simp only [adopt, ends_bind_iff, ends_writePoints_device]
  exact (gives_pollAdoption result 5 _).mono (fun _ _ same => by rw [same]; rfl) fun _ _ _ => trivial

/-- An enable that is up over points that were then written. -/
structure Raised (v : Values) (enable : Point) (writes : List (Point × ℚ)) : Prop where
  enabled : v enable = some 1
  points : ∀ change ∈ writes, (v change.1).isSome → v change.1 = some change.2

theorem Raised.of_setAll {v : Values} {enable : Point} {writes : List (Point × ℚ)}
    (there : (v enable).isSome) (once : (writes.map Prod.fst).Nodup)
    (apart : ∀ change ∈ writes, change.1 ≠ enable) :
    Raised ((v.set enable 1).setAll writes) enable writes where
  enabled := by rw [setAll_of_notMem apart, set_of_isSome there]
  points change listed some_ := by
    rw [isSome_setAll] at some_
    exact setAll_of_mem once listed some_

/-- A point beside the enable and the points written changes nothing of them. -/
theorem Raised.set {v : Values} {enable : Point} {writes : List (Point × ℚ)}
    (raised : Raised v enable writes) {p : Point} (apart : enable ≠ p)
    (others : ∀ change ∈ writes, change.1 ≠ p) (value : ℚ) :
    Raised (v.set p value) enable writes where
  enabled := by rw [set_of_ne v value apart, raised.enabled]
  points change listed some_ := by
    rw [set_of_ne v value (others change listed)] at some_ ⊢
    exact raised.points change listed some_

/-- The registers are the same. -/
theorem Raised.congr {v v' : Values} {enable : Point} {writes : List (Point × ℚ)}
    (raised : Raised v enable writes) (same : v' enable = v enable)
    (points : ∀ change ∈ writes, v' change.1 = v change.1) : Raised v' enable writes where
  enabled := same.trans raised.enabled
  points change listed some_ := by
    rw [points change listed] at some_ ⊢
    exact raised.points change listed some_

/-! ### Curves and droop -/

/-- The writes of a curve, as points. -/
def curvePoints (c : Curve) (fields : CurveParams → List (CurvePoint × ℚ)) (curve : CurveParams) :
    List (Point × ℚ) :=
  (curveWrites fields curve).map fun change => (.curve c change.1, change.2)

/-- The fields a curve sets beside its points. -/
def settingPoints : List CurvePoint := [.deptRef, .pri, .vRef, .vRefAutoEna, .vRefAutoTms, .rspTms]

theorem map_fst_mapIdx {α : Type} (name : Nat → CurvePoint) (values : List α) (value : α → ℚ) :
    (values.mapIdx fun i v => (name i, value v)).map Prod.fst = (List.range values.length).map name := by
  refine List.ext_getElem (by simp) fun i _ _ => by simp

/-- A curve writes no point twice, and neither its enable nor its adoption. -/
theorem curveWrites_keys {fields : CurveParams → List (CurvePoint × ℚ)} {curve : CurveParams}
    (once : ((fields curve).map Prod.fst).Nodup)
    (settings : ∀ p ∈ (fields curve).map Prod.fst, p ∈ settingPoints) :
    ((curveWrites fields curve).map Prod.fst).Nodup ∧
      ∀ p ∈ (curveWrites fields curve).map Prod.fst, p ≠ .ena ∧ p ≠ .adptCrvReq := by
  have keys : (curveWrites fields curve).map Prod.fst = CurvePoint.actPt :: (fields curve).map Prod.fst
      ++ (List.range curve.xPts.length).map .x ++ (List.range curve.yPts.length).map .y := by
    rw [curveWrites, List.map_append, List.map_append, List.map_cons, ← map_fst_mapIdx _ _ id,
      ← map_fst_mapIdx _ _ id]
    rfl
  rw [keys]
  constructor
  · rw [List.nodup_append, List.nodup_append, List.nodup_cons]
    refine ⟨⟨⟨fun listed => ?_, once⟩, ?_, ?_⟩, ?_, ?_⟩
    · exact absurd (settings _ listed) (by decide)
    · exact List.Nodup.map (fun _ _ same => CurvePoint.x.inj same) List.nodup_range
    · intro p listed q listed' same
      obtain ⟨i, -, rfl⟩ := List.mem_map.mp listed'
      rcases List.mem_cons.mp listed with rfl | listed
      · cases same
      · rw [same] at listed
        exact absurd (settings _ listed) (by simp [settingPoints])
    · exact List.Nodup.map (fun _ _ same => CurvePoint.y.inj same) List.nodup_range
    · intro p listed q listed' same
      obtain ⟨i, -, rfl⟩ := List.mem_map.mp listed'
      subst same
      rcases List.mem_append.mp listed with listed | listed
      · rcases List.mem_cons.mp listed with same | listed
        · cases same
        · exact absurd (settings _ listed) (by simp [settingPoints])
      · obtain ⟨_, -, same⟩ := List.mem_map.mp listed
        cases same
  · intro p listed
    rcases List.mem_append.mp listed with listed | listed
    · rcases List.mem_append.mp listed with listed | listed
      · rcases List.mem_cons.mp listed with rfl | listed
        · exact ⟨nofun, nofun⟩
        · have known := settings p listed
          simp only [settingPoints, List.mem_cons, List.not_mem_nil, or_false] at known
          rcases known with rfl | rfl | rfl | rfl | rfl | rfl <;> exact ⟨nofun, nofun⟩
      · obtain ⟨_, -, rfl⟩ := List.mem_map.mp listed
        exact ⟨nofun, nofun⟩
    · obtain ⟨_, -, rfl⟩ := List.mem_map.mp listed
      exact ⟨nofun, nofun⟩

/-- A curve that is enabled is written after its enable. -/
theorem gives_updateCurve (c : Curve) (fields : CurveParams → List (CurvePoint × ℚ))
    (params : Option CurveParams)
    (once : ∀ curve, ((fields curve).map Prod.fst).Nodup)
    (settings : ∀ curve, ∀ p ∈ (fields curve).map Prod.fst, p ∈ settingPoints) (w : World Values) :
    Gives (updateCurve (deviceBus present capacity) c fields params) w fun t =>
      ∀ curve, params = some curve →
        Raised t.bus (.curve c .ena) (curvePoints c fields curve) := by
  simp only [updateCurve, ends_bind_iff, ends_getModel_device, ends_updateEnable_device]
  split
  swap
  · trivial
  split
  swap
  · trivial
  rename_i there
  cases params with
  | none => simp
  | some curve =>
      simp only [ends_ite_iff, ends_raise_iff, ends_bind_iff, ends_writePoints_device]
      refine ⟨fun _ => trivial, fun _ => ⟨fun _ => trivial, fun _ => ?_⟩⟩
      refine (gives_adopt _ _ _).mono (fun _ t adopted => ?_) fun _ _ _ => trivial
      obtain ⟨keys, others⟩ := curveWrites_keys (once curve) (settings curve)
      have apart : ∀ p ∈ curvePoints c fields curve,
          p.1 ≠ .curve c .ena ∧ p.1 ≠ .curve c .adptCrvReq := by
        intro p listed
        obtain ⟨change, listed', rfl⟩ := List.mem_map.mp listed
        obtain ⟨ena, request⟩ := others change.1 (List.mem_map_of_mem listed')
        exact ⟨fun same => ena (Point.curve.inj same).2, fun same => request (Point.curve.inj same).2⟩
      have once' : ((curvePoints c fields curve).map Prod.fst).Nodup := by
        have mapped : (curvePoints c fields curve).map Prod.fst =
            ((curveWrites fields curve).map Prod.fst).map (Point.curve c) := by
          simp [curvePoints, Function.comp_def]
        rw [mapped]
        exact keys.map fun _ _ same => (Point.curve.inj same).2
      intro curve' same
      cases same
      rw [adopted]
      exact (Raised.of_setAll there once' fun p listed => (apart p listed).1).set (by simp)
        (fun p listed => (apart p listed).2) 2

/-- The writes of the droop, as points. -/
def droopPoints (droop : DroopParams) : List (Point × ℚ) :=
  (droopFields droop).map fun change => (.droop change.1, change.2)

theorem gives_updatePf (params : Option DroopParams) (w : World Values) :
    Gives (updatePf (deviceBus present capacity) params) w fun t =>
      ∀ droop, params = some droop → Raised t.bus (.droop .ena) (droopPoints droop) := by
  simp only [updatePf, ends_bind_iff, ends_getModel_device, ends_updateEnable_device]
  split
  swap
  · trivial
  split
  swap
  · trivial
  rename_i there
  cases params with
  | none => simp
  | some droop =>
      simp only [ends_bind_iff, ends_writePoints_device]
      refine (gives_adopt _ _ _).mono (fun _ t adopted => ?_) fun _ _ _ => trivial
      have once : ((droopPoints droop).map Prod.fst).Nodup := by
        cases found : droop.pmin <;> simp [droopPoints, droopFields, found]
      have apart : ∀ p ∈ droopPoints droop,
          p.1 ≠ .droop .ena ∧ p.1 ≠ .droop .adptCtlReq := by
        cases found : droop.pmin <;> simp [droopPoints, droopFields, found]
      intro droop' same
      cases same
      rw [adopted]
      exact (Raised.of_setAll there once fun p listed => (apart p listed).1).set (by simp)
        (fun p listed => (apart p listed).2) 2

/-! ### Setpoints -/

/-- An enable and then points of a model that implements them. -/
theorem ends_enable_then_write {enable : Point} {changes : List (Point × ℚ)}
    (once : (changes.map Prod.fst).Nodup) (apart : ∀ change ∈ changes, change.1 ≠ enable)
    (implemented : unimplementedPoints w.bus (changes.map Prod.fst) = []) :
    Gives (do
      updateEnable (deviceBus present capacity) enable 1
      writePoints (deviceBus present capacity) changes) w fun t =>
      t.bus enable = some 1 ∧ ∀ change ∈ changes, t.bus change.1 = some change.2 := by
  simp only [ends_bind_iff, ends_updateEnable_device, ends_writePoints_device]
  split
  swap
  · trivial
  rename_i there
  have raised := Raised.of_setAll there once apart
  refine ⟨raised.enabled, fun change listed => raised.points change listed ?_⟩
  rw [isSome_setAll, set_of_ne _ _ (apart change listed)]
  exact unimplementedPoints_eq_nil.mp implemented _ (List.mem_map_of_mem listed)

theorem gives_updateConstQ (params : Option (ℤ × ℚ)) (w : World Values) :
    Gives (updateConstQ (deviceBus present capacity) params) w fun t =>
      ∀ refType pct mod, params = some (refType, pct) → varSetMod refType = some mod →
        t.bus .varSetEna = some 1 ∧ t.bus .varSetPct = some pct ∧ t.bus .varSetMod = some mod ∧
          t.bus .varSetPri = some 1 := by
  simp only [updateConstQ, ends_bind_iff, ends_getModel_device]
  split
  swap
  · trivial
  rcases params with _ | ⟨refType, pct⟩
  · simp only [ends_updateEnable_device]
    split
    · simp
    · trivial
  · simp only
    cases mapped : varSetMod refType with
    | none =>
        intro refType' pct' mod same mapped'
        cases same
        rw [mapped] at mapped'
        cases mapped'
    | some mod =>
        simp only
        rw [ends_ite_iff]
        refine ⟨fun _ => trivial, fun implemented => ?_⟩
        rw [ne_eq, not_not] at implemented
        refine (ends_enable_then_write (by simp) (by simp) implemented).mono (fun _ t wrote => ?_)
          fun _ _ _ => trivial
        intro refType' pct' mod' same mapped'
        cases same
        rw [mapped, Option.some.injEq] at mapped'
        subst mapped'
        exact ⟨wrote.1, wrote.2 (.varSetPct, pct) (by simp), wrote.2 (.varSetMod, mod) (by simp),
          wrote.2 (.varSetPri, 1) (by simp)⟩

/-- What WSetEna, WSetMod and the setpoint it selects were last set to. -/
inductive Setpoint where
  | untouched
  | withdrawn
  | percent (pct : ℚ)
  | watts (value : ℚ)
  deriving DecidableEq

def Setpoint.Shown (v : Values) : Setpoint → Prop
  | untouched => True
  | withdrawn => v .wSetEna = some 0
  | percent pct => v .wSetEna = some 1 ∧ v .wSetMod = some 0 ∧ v .wSetPct = some pct
  | .watts value => v .wSetEna = some 1 ∧ v .wSetMod = some 1 ∧ v .wSet = some value

theorem gives_withdrawSetpoint (w : World Values) :
    Gives (updateEnable (deviceBus present capacity) .wSetEna 0) w fun t =>
      Setpoint.withdrawn.Shown t.bus := by
  rw [Gives, ends_updateEnable_device]
  split
  · rename_i there
    exact set_of_isSome there 0
  · trivial

theorem gives_percentSetpoint {pct : ℚ} {w : World Values}
    (implemented : unimplementedPoints w.bus [.wSetMod, .wSetPct] = []) :
    Gives (do
      updateEnable (deviceBus present capacity) .wSetEna 1
      writePoints (deviceBus present capacity) [(.wSetMod, 0), (.wSetPct, pct)]) w fun t =>
      (Setpoint.percent pct).Shown t.bus := by
  refine (ends_enable_then_write (by simp) (by simp) implemented).mono (fun _ t wrote => ?_)
    fun _ _ _ => trivial
  exact ⟨wrote.1, wrote.2 (.wSetMod, 0) (by simp), wrote.2 (.wSetPct, pct) (by simp)⟩

theorem gives_updateFixedW (params : Option ℚ) (w : World Values) :
    Gives (updateFixedW (deviceBus present capacity) params) w fun t =>
      (params.elim Setpoint.withdrawn .percent).Shown t.bus := by
  simp only [updateFixedW, ends_bind_iff, ends_getModel_device]
  split
  swap
  · trivial
  cases params with
  | none => exact gives_withdrawSetpoint w
  | some pct =>
      rw [ends_ite_iff]
      refine ⟨fun _ => trivial, fun implemented => ?_⟩
      exact gives_percentSetpoint (not_not.mp implemented)

/-- What opModTargetW leaves of the setpoint `before`. -/
def targetSetpoint (v : Values) (before : Setpoint) : Option ℚ → Setpoint
  | none => .withdrawn
  | some watts =>
      if unimplementedPoints v [.wSetMod, .wSet] = [] then .watts watts
      else (pctOf v watts).elim before .percent

theorem gives_updateTargetW (params : Option ℚ) {before : Setpoint} {w : World Values}
    (shown : before.Shown w.bus) :
    Gives (updateTargetW (deviceBus present capacity) params) w fun t =>
      (targetSetpoint w.bus before params).Shown t.bus := by
  simp only [updateTargetW, ends_bind_iff, ends_getModel_device]
  split
  swap
  · trivial
  cases params with
  | none => exact gives_withdrawSetpoint w
  | some watts =>
      simp only [targetSetpoint]
      rw [ends_ite_iff]
      constructor
      · intro implemented
        rw [if_pos implemented]
        refine (ends_enable_then_write (by simp) (by simp) implemented).mono (fun _ t wrote => ?_)
          fun _ _ _ => trivial
        exact ⟨wrote.1, wrote.2 (.wSetMod, 1) (by simp), wrote.2 (.wSet, watts) (by simp)⟩
      · intro absent
        rw [if_neg absent, ends_ite_iff]
        refine ⟨fun implemented => ?_, fun _ => trivial⟩
        simp only [wattsAsPctOfWmax, ends_bind_iff, ends_getModel_device, ends_pure_iff]
        split
        swap
        · trivial
        cases pctOf w.bus watts with
        | none => exact shown
        | some pct => exact gives_percentSetpoint implemented

/-- The registers of one side show its power factor. -/
structure ShowsPf (v : Values) (enable ext pf : Point) (overExcited : ℚ) (factor : PowerFactor) :
    Prop where
  enabled : v enable = some 1
  excitation : v ext = some (if factor.excitation then overExcited else 1 - overExcited)
  pf : (v pf).map Arg.number = some factor.pf

theorem ShowsPf.congr {v v' : Values} {enable ext pf : Point} {overExcited : ℚ}
    {factor : PowerFactor} (shown : ShowsPf v enable ext pf overExcited factor)
    (same : ∀ p ∈ [enable, ext, pf], v' p = v p) : ShowsPf v' enable ext pf overExcited factor := by
  simp only [List.forall_mem_cons] at same
  obtain ⟨same₁, same₂, same₃, -⟩ := same
  exact ⟨same₁.trans shown.enabled, same₂.trans shown.excitation, by rw [same₃, shown.pf]⟩

theorem gives_updatePfSide {model : Values} {enable ext pf : Point} {control : String}
    {overExcited : ℚ} (side : Option PowerFactor) {w : World Values}
    (apart : [enable, ext, pf].Nodup) (read : ∀ p, (model p).isSome = (w.bus p).isSome) :
    Gives (updatePfSide (deviceBus present capacity) model enable ext pf control overExcited side) w
      fun t => (∀ factor, side = some factor → ShowsPf t.bus enable ext pf overExcited factor) ∧
        (∀ p, p ∉ [enable, ext, pf] → t.bus p = w.bus p) ∧
        ∀ p, (t.bus p).isSome = (w.bus p).isSome := by
  simp only [List.nodup_cons, List.mem_cons, List.not_mem_nil, or_false, not_or] at apart
  obtain ⟨⟨enable_ext, enable_pf⟩, ext_pf, -⟩ := apart
  have enabled : ∀ p value, p ∉ [enable, ext, pf] → w.bus.set enable value p = w.bus p := by
    intro p value other
    exact set_of_ne _ _ fun same => other (same ▸ List.mem_cons_self)
  have kept : ∀ p value, (w.bus.set enable value p).isSome = (w.bus p).isSome := fun p value =>
    isSome_setAll [(enable, value)]
  rcases side with _ | ⟨arg, excitation⟩
  · simp only [updatePfSide, ends_ite_iff, ends_updateEnable_device, ends_pure_iff]
    refine ⟨fun _ => ?_, fun _ => ⟨by simp, fun _ _ => trivial, fun _ => trivial⟩⟩
    split
    · exact ⟨by simp, fun p other => enabled p 0 other, fun p => kept p 0⟩
    · trivial
  · rcases arg with q | _
    swap
    · trivial
    simp only [updatePfSide, requirePowerFactor, asNumber, pure_bind]
    rw [Gives, ends_bind_iff]
    split
    swap
    · trivial
    simp only [ends_pure_iff, ends_ite_iff, ends_bind_iff, ends_updateEnable_device,
      ends_writePoints_device]
    refine ⟨fun _ => trivial, fun implemented => ?_⟩
    split
    swap
    · trivial
    rename_i there
    rw [ne_eq, not_not, unimplementedPoints_eq_nil] at implemented
    have ext_there := implemented ext List.mem_cons_self
    have pf_there := implemented pf (List.mem_cons_of_mem _ List.mem_cons_self)
    rw [read] at ext_there pf_there
    have raised : Raised ((w.bus.set enable 1).setAll
        [(ext, if excitation then overExcited else 1 - overExcited), (pf, q)]) enable
        [(ext, if excitation then overExcited else 1 - overExcited), (pf, q)] :=
      .of_setAll there (by simp [ext_pf]) (by simp [Ne.symm enable_ext, Ne.symm enable_pf])
    refine ⟨fun factor same => ?_, fun p other => ?_, fun p => ?_⟩
    · cases same
      refine ⟨raised.enabled, raised.points (ext, _) List.mem_cons_self ?_, ?_⟩
      · rw [isSome_setAll, kept]
        exact ext_there
      · have wrote := raised.points (pf, q) (by simp) (by rw [isSome_setAll, kept]; exact pf_there)
        exact congrArg (Option.map Arg.number) wrote
    · rw [setAll_of_notMem, enabled p 1 other]
      intro change listed same
      refine other ?_
      simp only [List.mem_cons, List.not_mem_nil, or_false] at listed ⊢
      rcases listed with rfl | rfl
      · exact .inr (.inl same.symm)
      · exact .inr (.inr same.symm)
    · rw [isSome_setAll, kept]

theorem gives_updateConstPf (inj abs : Option PowerFactor) (w : World Values) :
    Gives (updateConstPf (deviceBus present capacity) inj abs) w fun t =>
      (∀ factor, inj = some factor →
        ShowsPf t.bus .pfwInjEna .pfwInjExt .pfwInjPf 0 factor) ∧
      ∀ factor, abs = some factor →
        ShowsPf t.bus .pfwAbsEna .pfwAbsExt .pfwAbsPf 1 factor := by
  simp only [updateConstPf, ends_bind_iff, ends_getModel_device]
  split
  swap
  · trivial
  refine (gives_updatePfSide inj (by decide) fun _ => rfl).mono (fun _ t first => ?_)
    fun _ _ _ => trivial
  obtain ⟨shown, -, some_⟩ := first
  refine (gives_updatePfSide abs (by decide) fun p => (some_ p).symm).mono (fun _ u second => ?_)
    fun _ _ _ => trivial
  obtain ⟨shown', others, -⟩ := second
  refine ⟨fun factor same => (shown factor same).congr fun p listed => others p ?_, shown'⟩
  simp only [List.mem_cons, List.not_mem_nil, or_false] at listed
  rcases listed with rfl | rfl | rfl <;> decide

theorem gives_updateConnect (connected : Bool) (w : World Values) :
    Gives (updateConnect (deviceBus present capacity) connected) w fun t =>
      t.bus .es = some (if connected then 1 else 0) := by
  rw [updateConnect, Gives, ends_ite_iff]
  refine ⟨fun _ => ?_, fun _ => trivial⟩
  simp only [ends_bind_iff, ends_getModel_device, ends_updateEnable_device]
  split
  swap
  · trivial
  split
  · rename_i there
    exact set_of_isSome there _
  · trivial

/-! ### Charge limits -/

/-- The charge limit that was written, where the device takes one. -/
def ChargeWritten (core : Core) (v : Values) : Prop :=
  rateSettingIsSupported v .abs = true → ∀ rating, v .wChaRteMaxRtg = some rating →
    v .wChaRteMax = some (match core.activeCharges.min? with
      | some low => min low rating
      | none => rating)

/-- The last part of `_set_charge_limit`, once the model is read. -/
theorem gives_chargeRate (slot : ChargeSlot) (watts : Option ℚ) (w : World Values) :
    (match rateSettingIsSupported w.bus .abs, w.bus .wChaRteMaxRtg with
      | true, some rating => do
          let target := match (w.core.setCharge slot watts).activeCharges.min? with
            | some low => min low rating
            | none => rating
          requireUint16Watts target (w.bus .wSf)
          writePoints (deviceBus present capacity) [(.wChaRteMax, target)]
      | _, _ => pure () : Call Values Unit).Ends
        { w with core := w.core.setCharge slot watts }
        (fun _ t => t.core.chargeLimits = Function.update w.core.chargeLimits slot watts ∧
          ChargeWritten t.core t.bus) fun _ _ => True := by
  split
  · rename_i rating supported rated
    simp only [ends_bind_iff, ends_writePoints_device]
    refine (gives_requireUint16Watts _ _ _).mono (fun _ t same => ?_) fun _ _ _ => trivial
    subst same
    refine ⟨rfl, fun _ rating' rated' => ?_⟩
    have there : (w.bus .wChaRteMax).isSome := by
      simp only [rateSettingIsSupported, Bool.and_eq_true] at supported
      exact supported.1
    rw [setAll_of_notMem (by simp)] at rated'
    cases rated.symm.trans rated'
    exact set_of_isSome there _
  · rename_i unsupported
    refine ⟨rfl, fun supported rating rated => ?_⟩
    exact absurd rated (unsupported rating supported)

theorem gives_setChargeLimit (slot : ChargeSlot) (watts : Option ℚ) {model702 : Option Values}
    {w : World Values} (read : ∀ model, model702 = some model → model = w.bus) :
    Gives (setChargeLimit (deviceBus present capacity) slot watts model702) w fun t =>
      t.core.chargeLimits = Function.update w.core.chargeLimits slot watts ∧
        ChargeWritten t.core t.bus := by
  simp only [setChargeLimit, record, ends_bind_iff, ends_read_iff, ends_change_iff, ends_except_iff,
    ends_raise_iff]
  cases model702 with
  | some model =>
      rw [read model rfl]
      exact gives_chargeRate slot watts w
  | none =>
      simp only [ends_bind_iff, ends_getModel_device]
      split
      · exact gives_chargeRate slot watts w
      · trivial

end Calls

end Py20305.SunSpec
