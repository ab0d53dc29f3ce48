import Mathlib.Data.List.Induction
import Py20305.SunSpec.Effects

/-!
Controls that share registers.

Withdrawing a control leaves the others in effect, with two exceptions: opModFixedW and
opModTargetW lower one enable, and a target power held in percent is not expressed anew
where an inject limit moves WMax (`others_expressed_iff`).
-/

namespace Py20305.SunSpec

open Raising

/-! ### What is claimed -/

/-- The value of each element's latest call. -/
def latest (calls : List ElementCall) : (e : Element) → Option e.Value :=
  calls.foldl (fun values call => Function.update values call.element call.value) fun _ => none

/-- The limits of the latest calls. -/
def limitsAsked (calls : List ElementCall) : Slot → Option ℚ
  | .any => (latest calls .maxLimW).map fun (pct : ℤ) => (pct : ℚ) / 100
  | .inj => (latest calls .maxLimWInject).map Quantity.scaled
  | .gen => (latest calls .genLimW).map Quantity.scaled

/-- The charge limits of the latest calls. -/
def chargesAsked (calls : List ElementCall) : List ℚ :=
  [(latest calls .maxLimWAbsorb).map Quantity.scaled,
    (latest calls .loadLimW).map Quantity.scaled].reduceOption

/-- opModConnect and opModEnergize. -/
def permitted (calls : List ElementCall) : Bool :=
  (latest calls .connect).getD true && (latest calls .energize).getD true

section Claim

variable (v₀ : Values)

/-- Watts as a percent of WMax, with an inject limit on a device that had the values `v₀`. -/
def pctFor (inject : Option ℚ) : ℚ → Option ℚ :=
  pctOf (Function.update v₀ .wMax (wMaxFor v₀ inject))

/-- Watts as a percent of WMax, after the calls. -/
def pctAfter (calls : List ElementCall) : ℚ → Option ℚ := pctFor v₀ (limitsAsked calls .inj)

/-- The device takes opModTargetW in watts. -/
def TargetInWatts : Prop := unimplementedPoints v₀ [.wSetMod, .wSet] = []

instance : Decidable (TargetInWatts v₀) := decEq (unimplementedPoints v₀ _) []

/-- The call, after the older ones, enables its element. A value the device has no way to take is
logged and nothing is written. -/
def Enables (older : List ElementCall) : ElementCall → Prop
  | ⟨.maxLimWInject, some q⟩ => takesInject v₀ = true ∨ (pctAfter v₀ older q.scaled).isSome
  | ⟨.maxLimWAbsorb, some _⟩ => rateSettingIsSupported v₀ .abs = true
  | ⟨.fixedVar, some v⟩ => (varSetMod v.refType).isSome
  | ⟨.targetW, some q⟩ => TargetInWatts v₀ ∨ (pctAfter v₀ older q.scaled).isSome
  | ⟨_, some _⟩ => True
  | ⟨_, none⟩ => False

/-- The element that replaces a setpoint. -/
def Element.replacedBy : Element → Option Element
  | fixedW => some targetW
  | targetW => some fixedW
  | _ => none

/-- The latest call of an element enabled it, and none has replaced it since. -/
structure Stands (calls : List ElementCall) (e : Element) (value : e.Value)
    (older newer : List ElementCall) : Prop where
  split : calls = older ++ ⟨e, some value⟩ :: newer
  enables : Enables v₀ older ⟨e, some value⟩
  latest : ∀ call ∈ newer, call.element ≠ e
  kept : ∀ done call rest, newer = done ++ call :: rest →
    Enables v₀ (older ++ ⟨e, some value⟩ :: done) call → e.replacedBy ≠ some call.element

variable (calls : List ElementCall) (v : Values)

/-- The percents of the limits, of the present WMax. -/
def percents : Slot → Option ℚ
  | .any => limitsAsked calls .any
  | .inj => if takesInject v₀ then none else (limitsAsked calls .inj).bind (pctOf v)
  | .gen => (limitsAsked calls .gen).bind (pctOf v)

/-- WMaxLimPct is enabled and holds the least of the limits. -/
def ShowsMerged : Prop :=
  v .wMaxLimPctEna = some 1 ∧ v .wMaxLimPct = least (percents v₀ calls v)

/-- WChaRteMax holds the least of the charge limits and its rating. -/
def ShowsCharge : Prop :=
  ∃ rating low, v .wChaRteMaxRtg = some rating ∧ (chargesAsked calls).min? = some low ∧
    v .wChaRteMax = some (min low rating)

/-- The setpoint of opModFixedVar. -/
def ShowsVar (value : FixedVarValue) : Prop :=
  v .varSetEna = some 1 ∧ v .varSetPct = some ((value.value : ℚ) / 100) ∧
    v .varSetMod = varSetMod value.refType ∧ v .varSetPri = some 1

/-- The enable point of an element is up and its registers show its value. -/
def Shows : (e : Element) → e.Value → Prop
  | .voltVar, c => Raised v (.curve .qv .ena) (curvePoints .qv qvFields c.params)
  | .voltWatt, c => Raised v (.curve .pv .ena) (curvePoints .pv pvFields c.params)
  | .wattVar, c => Raised v (.curve .qp .ena) (curvePoints .qp qpFields c.params)
  | .freqDroop, d => Raised v (.droop .ena) (droopPoints d.params)
  | .maxLimW, _ => ShowsMerged v₀ calls v
  | .maxLimWInject, q =>
      if takesInject v₀ then
        v .wDisChaRteMax = some q.scaled ∧ v .wMax = (v₀ .wMax).map fun _ => mirrored v₀ q.scaled
      else (pctOf v q.scaled).isSome ∧ ShowsMerged v₀ calls v
  | .genLimW, q => (pctOf v q.scaled).isSome ∧ ShowsMerged v₀ calls v
  | .maxLimWAbsorb, _ | .loadLimW, _ => ShowsCharge calls v
  | .fixedVar, value => ShowsVar v value
  | .fixedPFInjectW, p => ShowsPf v .pfwInjEna .pfwInjExt .pfwInjPf 0 p.params
  | .fixedPFAbsorbW, p => ShowsPf v .pfwAbsEna .pfwAbsExt .pfwAbsPf 1 p.params
  | .fixedW, pct => (Setpoint.percent ((pct : ℚ) / 100)).Shown v
  | .targetW, q =>
      if TargetInWatts v₀ then (Setpoint.watts q.scaled).Shown v
      else ∃ pct, pctOf v q.scaled = some pct ∧ (Setpoint.percent pct).Shown v
  | .connect, _ | .energize, _ => v .es = some (if permitted calls then 1 else 0)

/-! ### Where it holds -/

/-- No later call disturbs the element. -/
def Undisturbed (older newer : List ElementCall) : (e : Element) → e.Value → Prop
  | .fixedW, _ => ⟨.targetW, none⟩ ∉ newer
  | .targetW, q => ⟨.fixedW, none⟩ ∉ newer ∧
      (¬ TargetInWatts v₀ → pctAfter v₀ calls q.scaled = pctAfter v₀ older q.scaled)
  | .genLimW, q => (pctAfter v₀ calls q.scaled).isSome
  | _, _ => True

end Claim

/-! ### The latest calls -/

section Latest

variable {calls done newer : List ElementCall} {call : ElementCall} {e : Element}

theorem latest_concat (calls : List ElementCall) (call : ElementCall) :
    latest (calls ++ [call]) = Function.update (latest calls) call.element call.value := by
  rw [latest, List.foldl_append]
  rfl

theorem latest_self (calls : List ElementCall) (value : Option e.Value) :
    latest (calls ++ [⟨e, value⟩]) e = value := by
  rw [latest_concat, Function.update_self]

theorem latest_of_ne (other : e ≠ call.element) : latest (calls ++ [call]) e = latest calls e := by
  rw [latest_concat, Function.update_of_ne other]

theorem latest_of_home (other : e.home ≠ call.element.home) :
    latest (calls ++ [call]) e = latest calls e :=
  latest_of_ne fun same => other (same ▸ rfl)

theorem latest_append (none_ : ∀ call ∈ newer, call.element ≠ e) :
    latest (done ++ newer) e = latest done e := by
  induction newer using List.reverseRecOn with
  | nil => rw [List.append_nil]
  | append_singleton before last ih =>
      rw [← List.append_assoc, latest_of_ne (none_ last (by simp)).symm]
      exact ih fun call listed => none_ call (List.mem_append_left _ listed)

theorem Stands.latest_eq {v₀ : Values} {value : e.Value} {older : List ElementCall}
    (stands : Stands v₀ calls e value older newer) : SunSpec.latest calls e = some value := by
  rw [stands.split, List.append_cons, latest_append stands.latest, latest_self]

/-- An element that is enabled stands, if nothing replaces it. -/
theorem exists_stands {v₀ : Values} {value : e.Value} (found : latest calls e = some value)
    (alone : e.replacedBy = none) (enables : ∀ older, Enables v₀ older ⟨e, some value⟩) :
    ∃ older newer, Stands v₀ calls e value older newer := by
  induction calls using List.reverseRecOn with
  | nil => cases found
  | append_singleton before last ih =>
      by_cases mine : e = last.element
      · subst mine
        rw [latest_self] at found
        refine ⟨before, [], ?_, enables before, nofun, fun done call rest split_ => ?_⟩
        · rw [← found]
        · cases done <;> cases split_
      · rw [latest_of_ne mine] at found
        obtain ⟨older, newer, stands⟩ := ih found
        refine ⟨older, newer ++ [last], ?_, stands.enables, ?_, fun _ _ _ _ _ => ?_⟩
        · rw [stands.split, List.append_assoc, List.cons_append]
        · intro call listed
          rcases List.mem_append.mp listed with listed | listed
          · exact stands.latest call listed
          · rw [List.mem_singleton.mp listed]
            exact Ne.symm mine
        · rw [alone]
          exact nofun

end Latest

/-! ### The setpoint -/

section Setpoints

variable (v₀ : Values)

/-- What a call leaves of the setpoint, after the older calls. -/
def Setpoint.step (older : List ElementCall) (before : Setpoint) : ElementCall → Setpoint
  | ⟨.fixedW, value⟩ => value.elim .withdrawn fun (pct : ℤ) => .percent ((pct : ℚ) / 100)
  | ⟨.targetW, none⟩ => .withdrawn
  | ⟨.targetW, some q⟩ =>
      if TargetInWatts v₀ then .watts q.scaled
      else (pctAfter v₀ older q.scaled).elim before .percent
  | _ => before

/-- The setpoint, from the newest call. -/
def setpointFrom : List ElementCall → Setpoint
  | [] => .untouched
  | call :: older => Setpoint.step v₀ older.reverse (setpointFrom older) call

def setpointOf (calls : List ElementCall) : Setpoint := setpointFrom v₀ calls.reverse

variable {v₀} {calls : List ElementCall} {call : ElementCall}

theorem setpointOf_concat (calls : List ElementCall) (call : ElementCall) :
    setpointOf v₀ (calls ++ [call]) = Setpoint.step v₀ calls (setpointOf v₀ calls) call := by
  simp [setpointOf, setpointFrom]

theorem Setpoint.step_of_home (other : call.element.home ≠ .setpoint) (older : List ElementCall)
    (before : Setpoint) : Setpoint.step v₀ older before call = before := by
  obtain ⟨e, value⟩ := call
  cases e with
  | fixedW => exact absurd rfl other
  | targetW => exact absurd rfl other
  | _ => rfl

/-- A call of the element that replaces another withdraws the setpoint, or enables, or leaves it. -/
theorem Setpoint.step_replacing {e : Element} (replaces : e.replacedBy = some call.element)
    (older : List ElementCall) (before : Setpoint) (not_enables : ¬ Enables v₀ older call) :
    (call.value = none → Setpoint.step v₀ older before call = .withdrawn) ∧
      (call.value ≠ none → Setpoint.step v₀ older before call = before) := by
  obtain ⟨e', value⟩ := call
  cases e with
  | fixedW =>
      cases replaces
      cases value with
      | none => exact ⟨fun _ => rfl, fun some_ => absurd rfl some_⟩
      | some q =>
          refine ⟨nofun, fun _ => ?_⟩
          rw [Enables, not_or, Option.not_isSome_iff_eq_none] at not_enables
          rw [Setpoint.step, if_neg not_enables.1, not_enables.2]
          rfl
  | targetW =>
      cases replaces
      cases value with
      | none => exact ⟨fun _ => rfl, fun some_ => absurd rfl some_⟩
      | some pct => exact absurd trivial not_enables
  | _ => cases replaces

/-- An element's setpoint is there until the one that shares its registers is withdrawn. -/
theorem Stands.setpoint {e : Element} {value : e.Value} {older newer : List ElementCall}
    (stands : Stands v₀ calls e value older newer) (e' : Element) (shares : e.replacedBy = some e')
    (homes : ∀ x : Element, x.home = .setpoint → x = e ∨ x = e') :
    (⟨e', none⟩ ∈ newer → setpointOf v₀ calls = .withdrawn) ∧
      (⟨e', none⟩ ∉ newer → setpointOf v₀ calls = setpointOf v₀ (older ++ [⟨e, some value⟩])) := by
  obtain ⟨split_, -, latest_, kept⟩ := stands
  subst split_
  rw [List.append_cons]
  induction newer using List.reverseRecOn with
  | nil => simp
  | append_singleton before last ih =>
      obtain ⟨lost, held⟩ := ih (fun call listed => latest_ call (List.mem_append_left _ listed))
        fun done call rest split_ => kept done call (rest ++ [last]) (by rw [split_]; simp)
      rw [← List.append_assoc, setpointOf_concat]
      have others := latest_ last (by simp)
      by_cases home : last.element.home = .setpoint
      · have mine : last.element = e' := (homes _ home).resolve_left others
        have idle : ¬ Enables v₀ (older ++ ⟨e, some value⟩ :: before) last := fun enables =>
          kept before last [] rfl enables (mine ▸ shares)
        rw [← List.append_cons]
        obtain ⟨withdraws, leaves⟩ := Setpoint.step_replacing (e := e) (mine ▸ shares) _
          (setpointOf v₀ (older ++ ⟨e, some value⟩ :: before)) idle
        obtain ⟨x, value'⟩ := last
        subst mine
        cases value' with
        | none =>
            refine ⟨fun _ => withdraws rfl, fun absent => absurd ?_ absent⟩
            simp
        | some y =>
            rw [leaves nofun]
            rw [← List.append_cons] at lost held
            exact ⟨fun listed => lost (by simpa using listed), fun absent => held (by simpa using absent)⟩
      · rw [Setpoint.step_of_home home]
        refine ⟨fun listed => lost ?_, fun absent => held fun listed => absent (by simp [listed])⟩
        rcases List.mem_append.mp listed with listed | listed
        · exact listed
        · refine absurd ?_ home
          rw [← List.mem_singleton.mp listed]
          cases e <;> cases shares <;> rfl

end Setpoints

/-! ### What is shown -/

section Shown

variable (v₀ : Values) (calls : List ElementCall)

/-- The charge limits recorded, and what was written for them. -/
structure ChargesHeld (w : World Values) : Prop where
  abs : w.core.chargeLimits .abs =
    if rateSettingIsSupported v₀ .abs then (latest calls .maxLimWAbsorb).map Quantity.scaled else none
  load : w.core.chargeLimits .load = (latest calls .loadLimW).map Quantity.scaled
  takes : (latest calls .loadLimW).isSome → rateSettingIsSupported v₀ .abs = true
  written : w.core.activeCharges ≠ [] → ChargeWritten w.core w.bus

/-- Connect and energize, as they are merged. -/
structure ServiceHeld (s : Site Values) : Prop where
  connect : s.controls.opModConnect = (latest calls .connect).getD true
  energize : s.controls.opModEnergize = (latest calls .energize).getD true
  written : (latest calls .connect).isSome ∨ (latest calls .energize).isSome →
    s.core.bus .es = some (if permitted calls then 1 else 0)

/-- The two power factors, as they are merged. -/
structure PowerFactorsHeld (s : Site Values) : Prop where
  inj : s.controls.pfInj = (latest calls .fixedPFInjectW).map PowerFactorValue.params
  abs : s.controls.pfAbs = (latest calls .fixedPFAbsorbW).map PowerFactorValue.params
  shownInj : ∀ factor, s.controls.pfInj = some factor →
    ShowsPf s.core.bus .pfwInjEna .pfwInjExt .pfwInjPf 0 factor
  shownAbs : ∀ factor, s.controls.pfAbs = some factor →
    ShowsPf s.core.bus .pfwAbsEna .pfwAbsExt .pfwAbsPf 1 factor

/-- What the registers of a home show after the calls. -/
def HomeShown (s : Site Values) : Home → Prop
  | .nameplate => ∀ p, p.home = .nameplate → s.core.bus p = v₀ p
  | .limits => Holding v₀ (limitsAsked calls) False s.core
  | .charge => ChargesHeld v₀ calls s.core
  | .service => ServiceHeld calls s
  | .setpoint => (setpointOf v₀ calls).Shown s.core.bus
  | .vars => ∀ value : FixedVarValue, latest calls .fixedVar = some value →
      (varSetMod value.refType).isSome → ShowsVar s.core.bus value
  | .powerFactor => PowerFactorsHeld calls s
  | .curve .qv => ∀ c : CurveValue, latest calls .voltVar = some c →
      Raised s.core.bus (.curve .qv .ena) (curvePoints .qv qvFields c.params)
  | .curve .pv => ∀ c : CurveValue, latest calls .voltWatt = some c →
      Raised s.core.bus (.curve .pv .ena) (curvePoints .pv pvFields c.params)
  | .curve .qp => ∀ c : CurveValue, latest calls .wattVar = some c →
      Raised s.core.bus (.curve .qp .ena) (curvePoints .qp qpFields c.params)
  | .droop => ∀ d : DroopValue, latest calls .freqDroop = some d →
      Raised s.core.bus (.droop .ena) (droopPoints d.params)

/-- What all registers show after the calls. -/
structure Shown (s : Site Values) : Prop where
  implemented : ∀ p, (s.core.bus p).isSome = (v₀ p).isSome
  homes : ∀ h, HomeShown v₀ calls s h

end Shown

/-! ### One call -/

section Steps

variable {v₀ : Values} {calls : List ElementCall} {s : Site Values} {call : ElementCall}
  {t : World Values} {h : Home} {present : ModelId → Bool} {capacity : Curve → Nat}

theorem limitsAsked_of_home (other : .limits ≠ call.element.home) :
    limitsAsked (calls ++ [call]) = limitsAsked calls := by
  have same : ∀ e : Element, e.home = .limits → latest (calls ++ [call]) e = latest calls e :=
    fun e mine => latest_of_home (mine ▸ other)
  funext slot
  cases slot with
  | any => simp only [limitsAsked, same .maxLimW rfl]
  | inj => simp only [limitsAsked, same .maxLimWInject rfl]
  | gen => simp only [limitsAsked, same .genLimW rfl]

/-- The limits are held through a call of another home. -/
theorem Holding.frame {asked : Slot → Option ℚ} {touched : Prop} {w : World Values}
    (holding : Holding v₀ asked touched w) (frame : Frame h w t) (nameplate : h ≠ .nameplate)
    (limits : h ≠ .limits) : Holding v₀ asked touched t := by
  have point : ∀ p : Point, p.home = .nameplate ∨ p.home = .limits → t.bus p = w.bus p := by
    intro p mine
    refine frame.points p fun same => ?_
    rcases mine with mine | mine
    · exact nameplate (same.symm.trans mine)
    · exact limits (same.symm.trans mine)
  have active : t.core.active = w.core.active := by
    funext slot
    rw [Core.active, Core.active, frame.slots limits]
  have pct : pctOf t.bus = pctOf w.bus := pctOf_congr (point _ (.inr rfl)) (point _ (.inl rfl))
  have base := holding.base
  have slots := holding.slots
  refine ⟨?_, ?_, holding.expressed.of rfl (congrFun active _) pct, fun some_ => ?_, holding.sane⟩
  · exact
      { rating := (point _ (.inl rfl)).trans base.rating
        dischargeRating := (point _ (.inl rfl)).trans base.dischargeRating
        implemented := by rw [point _ (.inr rfl)]; exact base.implemented
        discharge := fun takes watts asks => (point _ (.inr rfl)).trans (base.discharge takes watts asks)
        wMax := (point _ (.inr rfl)).trans base.wMax
        baseline := (frame.baseline limits).trans base.baseline }
  · refine ⟨by rw [active, slots.any], by rw [active, slots.inj], fun takes => ?_,
      (frame.watts limits).trans slots.watts, fun none_ => ?_, fun watts asks => ?_⟩
    · rw [frame.slots limits, slots.direct takes]
    · rw [frame.slots limits, slots.noGen none_]
    · rw [frame.slots limits]
      exact slots.gen watts asks
  · rw [active] at some_
    have before := holding.merging some_
    unfold Merging at before ⊢
    rwa [active, point _ (.inr rfl), point _ (.inr rfl)]

/-- A power factor or a connect state is merged by its own calls alone. -/
theorem translate_controls (controls : Controls) (call : ElementCall) :
    (.powerFactor ≠ call.element.home →
      (controls.translate call.element call.value).1.pfInj = controls.pfInj ∧
        (controls.translate call.element call.value).1.pfAbs = controls.pfAbs) ∧
    (.service ≠ call.element.home →
      (controls.translate call.element call.value).1.opModConnect = controls.opModConnect ∧
        (controls.translate call.element call.value).1.opModEnergize = controls.opModEnergize) := by
  obtain ⟨e, value⟩ := call
  constructor
  · intro other
    cases e with
    | fixedPFInjectW => exact absurd rfl other
    | fixedPFAbsorbW => exact absurd rfl other
    | _ => exact ⟨rfl, rfl⟩
  · intro other
    cases e with
    | connect => exact absurd rfl other
    | energize => exact absurd rfl other
    | _ => exact ⟨rfl, rfl⟩

/-- The site a call that returns leaves. -/
abbrev leftBy (s : Site Values) (call : ElementCall) (t : World Values) : Site Values where
  controls := (s.controls.translate call.element call.value).1
  core := t

/-- What is shown of a home is shown after a call of another. -/
theorem HomeShown.other (shown : HomeShown v₀ calls s h) (frame : Frame call.element.home s.core t)
    (other : h ≠ call.element.home) : HomeShown v₀ (calls ++ [call]) (leftBy s call t) h := by
  have point : ∀ p : Point, p.home = h → t.bus p = s.core.bus p := fun p mine =>
    frame.points p (mine ▸ other)
  have same : ∀ e : Element, e.home = h → latest (calls ++ [call]) e = latest calls e :=
    fun e mine => latest_of_home (mine ▸ other)
  have raised : ∀ {enable : Point} {writes : List (Point × ℚ)}, enable.home = h →
      (∀ change ∈ writes, change.1.home = h) → Raised s.core.bus enable writes →
      Raised t.bus enable writes := fun mine mine' held =>
    held.congr (point _ mine) fun change listed => point _ (mine' change listed)
  have curve : ∀ (c : Curve) (fields : CurveParams → List (CurvePoint × ℚ)) (params : CurveParams),
      ∀ change ∈ curvePoints c fields params, change.1.home = .curve c := by
    intro c fields params change listed
    obtain ⟨_, -, rfl⟩ := List.mem_map.mp listed
    rfl
  cases h with
  | nameplate => exact fun p mine => (point p mine).trans (shown p mine)
  | limits =>
      have nameplate : call.element.home ≠ .nameplate := by
        cases call.element <;> exact nofun
      change Holding v₀ (limitsAsked (calls ++ [call])) False t
      rw [limitsAsked_of_home other]
      exact Holding.frame shown frame nameplate other.symm
  | charge =>
      have shown : ChargesHeld v₀ calls s.core := shown
      refine ⟨?_, ?_, ?_, fun some_ => ?_⟩
      · rw [same .maxLimWAbsorb rfl, frame.charges other.symm, shown.abs]
      · rw [same .loadLimW rfl, frame.charges other.symm, shown.load]
      · rw [same .loadLimW rfl]
        exact shown.takes
      · have active : t.core.activeCharges = s.core.core.activeCharges := by
          rw [Core.activeCharges, Core.activeCharges, frame.charges other.symm]
        rw [active] at some_
        have before := shown.written some_
        have nameplate : ∀ p : Point, p.home = .nameplate → t.bus p = s.core.bus p := by
          intro p mine
          refine frame.points p fun same => ?_
          rw [mine] at same
          cases found : call.element <;> rw [found] at same <;> cases same
        unfold ChargeWritten at before ⊢
        have takes : rateSettingIsSupported t.bus .abs = rateSettingIsSupported s.core.bus .abs := by
          simp only [rateSettingIsSupported, Direction.setting, Direction.rating,
            nameplate .wChaRteMaxRtg rfl, point .wChaRteMax rfl]
        rwa [active, takes, nameplate .wChaRteMaxRtg rfl, point .wChaRteMax rfl]
  | service =>
      have shown : ServiceHeld calls s := shown
      obtain ⟨connect, energize⟩ := (translate_controls s.controls call).2 other
      refine ⟨?_, ?_, ?_⟩
      · rw [same .connect rfl]
        exact connect.trans shown.connect
      · rw [same .energize rfl]
        exact energize.trans shown.energize
      · rw [permitted, same .connect rfl, same .energize rfl]
        exact fun some_ => (point .es rfl).trans (shown.written some_)
  | setpoint =>
      have shown : (setpointOf v₀ calls).Shown s.core.bus := shown
      change (setpointOf v₀ (calls ++ [call])).Shown t.bus
      rw [setpointOf_concat, Setpoint.step_of_home other.symm]
      unfold Setpoint.Shown at shown ⊢
      rwa [point .wSetEna rfl, point .wSetMod rfl, point .wSetPct rfl, point .wSet rfl]
  | vars =>
      intro value found mapped
      have before := shown value ((same .fixedVar rfl).symm.trans found) mapped
      unfold ShowsVar at before ⊢
      rwa [point .varSetEna rfl, point .varSetPct rfl, point .varSetMod rfl, point .varSetPri rfl]
  | powerFactor =>
      have shown : PowerFactorsHeld calls s := shown
      obtain ⟨inj, abs⟩ := (translate_controls s.controls call).1 other
      refine ⟨?_, ?_, fun factor found => ?_, fun factor found => ?_⟩
      · rw [same .fixedPFInjectW rfl]
        exact inj.trans shown.inj
      · rw [same .fixedPFAbsorbW rfl]
        exact abs.trans shown.abs
      · refine (shown.shownInj factor (inj.symm.trans found)).congr fun p listed => point p ?_
        simp only [List.mem_cons, List.not_mem_nil, or_false] at listed
        rcases listed with rfl | rfl | rfl <;> rfl
      · refine (shown.shownAbs factor (abs.symm.trans found)).congr fun p listed => point p ?_
        simp only [List.mem_cons, List.not_mem_nil, or_false] at listed
        rcases listed with rfl | rfl | rfl <;> rfl
  | curve c =>
      cases c with
      | qv =>
          exact fun params found => raised rfl (curve .qv qvFields _)
            (shown params ((same .voltVar rfl).symm.trans found))
      | pv =>
          exact fun params found => raised rfl (curve .pv pvFields _)
            (shown params ((same .voltWatt rfl).symm.trans found))
      | qp =>
          exact fun params found => raised rfl (curve .qp qpFields _)
            (shown params ((same .wattVar rfl).symm.trans found))
  | droop =>
      intro d found
      refine raised rfl (fun change listed => ?_) (shown d ((same .freqDroop rfl).symm.trans found))
      obtain ⟨_, -, rfl⟩ := List.mem_map.mp listed
      rfl

theorem Shown.supported (shown : Shown v₀ calls s) :
    rateSettingIsSupported s.core.bus .abs = rateSettingIsSupported v₀ .abs := by
  simp only [rateSettingIsSupported, Direction.setting, Direction.rating, shown.implemented]
  rw [shown.homes .nameplate .wChaRteMaxRtg rfl]

theorem Shown.unimplemented (shown : Shown v₀ calls s) (points : List Point) :
    unimplementedPoints s.core.bus points = unimplementedPoints v₀ points := by
  simp only [unimplementedPoints, ← Option.not_isSome, shown.implemented]

theorem Shown.pctOf_eq (shown : Shown v₀ calls s) : pctOf s.core.bus = pctAfter v₀ calls := by
  have holding : Holding v₀ (limitsAsked calls) False s.core := shown.homes .limits
  refine pctOf_congr ?_ ?_
  · rw [Function.update_self]
    exact holding.base.wMax
  · rw [Function.update_of_ne (by decide)]
    exact holding.base.rating

/-- The charge limits after a call of one of them. -/
theorem gives_chargeCall (slot : ChargeSlot) (watts : Option ℚ)
    {model702 : Option Values} (read : ∀ model, model702 = some model → model = s.core.bus)
    (abs : (Function.update s.core.core.chargeLimits slot watts) .abs =
      if rateSettingIsSupported v₀ .abs then
        (latest (calls ++ [call]) .maxLimWAbsorb).map Quantity.scaled else none)
    (load : (Function.update s.core.core.chargeLimits slot watts) .load =
      (latest (calls ++ [call]) .loadLimW).map Quantity.scaled)
    (takes : (latest (calls ++ [call]) .loadLimW).isSome → rateSettingIsSupported v₀ .abs = true) :
    Gives (setChargeLimit (deviceBus present capacity) slot watts model702) s.core
      (ChargesHeld v₀ (calls ++ [call])) := by
  refine (gives_setChargeLimit slot watts read).mono (fun _ t applied => ?_) fun _ _ _ => trivial
  obtain ⟨limits, written⟩ := applied
  exact ⟨by rw [limits, abs], by rw [limits, load], takes, fun _ => written⟩

theorem Shown.updatePLimAbs (shown : Shown v₀ calls s) (value : Option Quantity) :
    Gives (updatePLimAbs (deviceBus present capacity) value.isSome (value.map Quantity.arg)) s.core
      (ChargesHeld v₀ (calls ++ [⟨.maxLimWAbsorb, value⟩])) := by
  have held : ChargesHeld v₀ calls s.core := shown.homes .charge
  have other : latest (calls ++ [⟨.maxLimWAbsorb, value⟩]) .loadLimW = latest calls .loadLimW :=
    latest_of_ne nofun
  have mine : latest (calls ++ [⟨.maxLimWAbsorb, value⟩]) .maxLimWAbsorb = value :=
    latest_self (e := .maxLimWAbsorb) calls value
  have load : ∀ watts, (Function.update s.core.core.chargeLimits .abs watts) .load =
      (latest (calls ++ [⟨.maxLimWAbsorb, value⟩]) .loadLimW).map Quantity.scaled := fun watts => by
    rw [Function.update_of_ne (by decide), other, held.load]
  have takes : (latest (calls ++ [⟨.maxLimWAbsorb, value⟩]) .loadLimW).isSome →
      rateSettingIsSupported v₀ .abs = true := by
    rw [other]
    exact held.takes
  cases value with
  | none =>
      change Gives (setChargeLimit _ .abs none none) _ _
      refine gives_chargeCall .abs none (fun _ same => nomatch same) ?_ (load none) takes
      rw [mine, Function.update_self, Option.map_none, ite_self]
  | some q =>
      change Gives (SunSpec.updatePLimAbs _ true (some (.number q.scaled))) _ _
      simp only [SunSpec.updatePLimAbs, ends_bind_iff, ends_requireWatts]
      split
      · trivial
      simp only [ends_getModel_device]
      split
      swap
      · trivial
      rw [ends_ite_iff, shown.supported]
      constructor
      · intro supported
        refine gives_chargeCall .abs (some q.scaled) (fun _ same => (Option.some.inj same).symm) ?_
          (load _) takes
        rw [mine, Function.update_self, if_pos supported]
        rfl
      · intro unsupported
        refine ⟨?_, ?_, takes, held.written⟩
        · rw [if_neg unsupported, held.abs, if_neg unsupported]
        · rw [other, held.load]

theorem Shown.updateLoadLim (shown : Shown v₀ calls s) (value : Option Quantity) :
    Gives (updateLoadLim (deviceBus present capacity) value.isSome (value.map Quantity.arg)) s.core
      (ChargesHeld v₀ (calls ++ [⟨.loadLimW, value⟩])) := by
  have held : ChargesHeld v₀ calls s.core := shown.homes .charge
  have mine : latest (calls ++ [⟨.loadLimW, value⟩]) .loadLimW = value :=
    latest_self (e := .loadLimW) calls value
  have abs : ∀ watts, (Function.update s.core.core.chargeLimits .load watts) .abs =
      if rateSettingIsSupported v₀ .abs then
        (latest (calls ++ [⟨.loadLimW, value⟩]) .maxLimWAbsorb).map Quantity.scaled else none := by
    intro watts
    have other : latest (calls ++ [⟨.loadLimW, value⟩]) .maxLimWAbsorb =
        latest calls .maxLimWAbsorb := latest_of_ne nofun
    rw [Function.update_of_ne (by decide), other, held.abs]
  cases value with
  | none =>
      change Gives (setChargeLimit _ .load none none) _ _
      refine gives_chargeCall .load none (fun _ same => nomatch same) (abs none) ?_ ?_
      · rw [mine, Function.update_self]
        rfl
      · rw [mine]
        exact nofun
  | some q =>
      change Gives (SunSpec.updateLoadLim _ true (some (.number q.scaled))) _ _
      simp only [SunSpec.updateLoadLim, ends_bind_iff, ends_requireWatts]
      split
      · trivial
      simp only [ends_getModel_device]
      split
      swap
      · trivial
      rw [ends_ite_iff, shown.supported]
      refine ⟨fun supported => ?_, fun _ => trivial⟩
      refine gives_chargeCall .load (some q.scaled) (fun _ same => (Option.some.inj same).symm)
        (abs _) ?_ fun _ => supported
      rw [mine, Function.update_self]
      rfl

theorem Shown.limits (shown : Shown v₀ calls s) (limit : LimitCall) (slot : Slot)
    (asked : limit.ask (limitsAsked calls) =
      Function.update (limitsAsked calls) slot (limitsAsked (calls ++ [call]) slot))
    (others : ∀ other, other ≠ slot → limitsAsked (calls ++ [call]) other = limitsAsked calls other) :
    Gives (limit.run (deviceBus present capacity)) s.core
      (Holding v₀ (limitsAsked (calls ++ [call])) False) := by
  have holding : Holding v₀ (limitsAsked calls) False s.core := shown.homes .limits
  have same : limit.ask (limitsAsked calls) = limitsAsked (calls ++ [call]) := by
    rw [asked]
    funext other
    by_cases mine : other = slot
    · rw [mine, Function.update_self]
    · rw [Function.update_of_ne mine, others other mine]
  rw [← same]
  exact (holding.call limit).mono (fun _ _ held => held.mono False.elim) fun _ _ _ => trivial

/-- What is shown of a home after its own call. -/
theorem Shown.own (shown : Shown v₀ calls s) (call : ElementCall) :
    Gives ((s.controls.translate call.element call.value).2.run (deviceBus present capacity)) s.core
      fun t => HomeShown v₀ (calls ++ [call]) (leftBy s call t) call.element.home := by
  obtain ⟨e, value⟩ := call
  have mine : latest (calls ++ [⟨e, value⟩]) e = value := latest_self calls value
  have others : ∀ e', e' ≠ e → latest (calls ++ [⟨e, value⟩]) e' = latest calls e' := fun _ other =>
    latest_of_ne other
  cases e with
  | voltVar =>
      exact (gives_updateCurve .qv qvFields _ (by simp [qvFields]) (by simp [qvFields, settingPoints])
        s.core).mono (fun _ t held c found => held _ (by rw [← mine, found]; rfl)) fun _ _ _ => trivial
  | voltWatt =>
      exact (gives_updateCurve .pv pvFields _ (by simp [pvFields]) (by simp [pvFields, settingPoints])
        s.core).mono (fun _ t held c found => held _ (by rw [← mine, found]; rfl)) fun _ _ _ => trivial
  | wattVar =>
      exact (gives_updateCurve .qp qpFields _ (by simp [qpFields]) (by simp [qpFields, settingPoints])
        s.core).mono (fun _ t held c found => held _ (by rw [← mine, found]; rfl)) fun _ _ _ => trivial
  | maxLimW =>
      refine shown.limits (.maxLimW value.isSome (value.map percentArg)) .any ?_ fun other ne => ?_
      · rw [limitsAsked, mine]
        cases value <;> rfl
      · cases other with
        | any => exact absurd rfl ne
        | inj => simp only [limitsAsked, others .maxLimWInject (by simp)]
        | gen => simp only [limitsAsked, others .genLimW (by simp)]
  | maxLimWInject =>
      refine shown.limits (.maxLimWInject value.isSome (value.map Quantity.arg)) .inj ?_
        fun other ne => ?_
      · rw [limitsAsked, mine]
        cases value <;> rfl
      · cases other with
        | any => simp only [limitsAsked, others .maxLimW (by simp)]
        | inj => exact absurd rfl ne
        | gen => simp only [limitsAsked, others .genLimW (by simp)]
  | genLimW =>
      refine shown.limits (.genLimW value.isSome (value.map Quantity.arg)) .gen ?_
        fun other ne => ?_
      · rw [limitsAsked, mine]
        cases value <;> rfl
      · cases other with
        | any => simp only [limitsAsked, others .maxLimW (by simp)]
        | inj => simp only [limitsAsked, others .maxLimWInject (by simp)]
        | gen => exact absurd rfl ne
  | maxLimWAbsorb => exact shown.updatePLimAbs value
  | loadLimW => exact shown.updateLoadLim value
  | freqDroop =>
      exact (gives_updatePf _ s.core).mono (fun _ t held d found => held _ (by rw [← mine, found]; rfl))
        fun _ _ _ => trivial
  | fixedVar =>
      refine (gives_updateConstQ _ s.core).mono (fun _ t held => ?_) fun _ _ _ => trivial
      intro v found mapped
      obtain ⟨mod, mapped⟩ := Option.isSome_iff_exists.mp mapped
      rw [mine] at found
      subst found
      obtain ⟨enabled, pct, mode, priority⟩ := held v.refType _ mod rfl mapped
      exact ⟨enabled, pct, by rw [mode, mapped], priority⟩
  | fixedPFInjectW =>
      have before : PowerFactorsHeld calls s := shown.homes .powerFactor
      refine (gives_updateConstPf _ _ s.core).mono (fun _ t held => ?_) fun _ _ _ => trivial
      refine ⟨?_, ?_, held.1, held.2⟩
      · rw [mine]
        rfl
      · rw [others .fixedPFAbsorbW (by simp)]
        exact before.abs
  | fixedPFAbsorbW =>
      have before : PowerFactorsHeld calls s := shown.homes .powerFactor
      refine (gives_updateConstPf _ _ s.core).mono (fun _ t held => ?_) fun _ _ _ => trivial
      refine ⟨?_, ?_, held.1, held.2⟩
      · rw [others .fixedPFInjectW (by simp)]
        exact before.inj
      · rw [mine]
        rfl
  | fixedW =>
      refine (gives_updateFixedW _ s.core).mono (fun _ t held => ?_) fun _ _ _ => trivial
      change (setpointOf v₀ (calls ++ [⟨.fixedW, value⟩])).Shown t.bus
      rw [setpointOf_concat]
      cases value <;> exact held
  | targetW =>
      have before : (setpointOf v₀ calls).Shown s.core.bus := shown.homes .setpoint
      refine (gives_updateTargetW _ before).mono (fun _ t held => ?_) fun _ _ _ => trivial
      change (setpointOf v₀ (calls ++ [⟨.targetW, value⟩])).Shown t.bus
      rw [setpointOf_concat]
      cases value with
      | none => exact held
      | some q =>
          rw [Option.map_some, targetSetpoint, shown.unimplemented, shown.pctOf_eq] at held
          exact held
  | connect =>
      have before : ServiceHeld calls s := shown.homes .service
      refine (gives_updateConnect _ s.core).mono (fun _ t held => ?_) fun _ _ _ => trivial
      have energize : s.controls.opModEnergize =
          (latest (calls ++ [⟨.connect, value⟩]) .energize).getD true := by
        rw [others .energize (by simp)]
        exact before.energize
      refine ⟨?_, energize, fun _ => ?_⟩
      · rw [mine]
        rfl
      · rw [permitted, mine, ← energize]
        exact held
  | energize =>
      have before : ServiceHeld calls s := shown.homes .service
      refine (gives_updateConnect _ s.core).mono (fun _ t held => ?_) fun _ _ _ => trivial
      have connect : s.controls.opModConnect =
          (latest (calls ++ [⟨.energize, value⟩]) .connect).getD true := by
        rw [others .connect (by simp)]
        exact before.connect
      refine ⟨connect, ?_, fun _ => ?_⟩
      · rw [mine]
        rfl
      · rw [permitted, mine, ← connect]
        exact held

/-- Every call that returns shows its home and keeps the others. -/
theorem Shown.step (shown : Shown v₀ calls s) (call : ElementCall) :
    (applyElement (deviceBus present capacity) call).Ends s
      (fun _ s' => Shown v₀ (calls ++ [call]) s') fun _ _ => True := by
  simp only [applyElement, ends_bind_iff, ends_read_iff, ends_change_iff, ends_except_iff,
    ends_within_iff, ends_raise_iff]
  refine ((shown.own call).and (stays_translate present capacity s.controls call s.core)).mono
    (fun _ t both => ?_) fun _ _ _ => trivial
  obtain ⟨own, frame⟩ := both
  refine ⟨fun p => (frame.implemented p).trans (shown.implemented p), fun h => ?_⟩
  by_cases mine : h = call.element.home
  · rw [mine]
    exact own
  · exact (shown.homes h).other frame mine

theorem Shown.fresh (v₀ : Values) : Shown v₀ [] (Site.fresh v₀) where
  implemented _ := rfl
  homes h := by
    cases h with
    | nameplate => exact fun _ _ => rfl
    | limits =>
        have none_ : limitsAsked [] = fun _ => none := by
          funext slot
          cases slot <;> rfl
        change Holding v₀ (limitsAsked []) False _
        rw [none_]
        exact Holding.fresh v₀
    | charge => exact ⟨(ite_self _).symm, rfl, nofun, fun some_ => absurd rfl some_⟩
    | service => exact ⟨rfl, rfl, fun some_ => by simp [latest] at some_⟩
    | setpoint => trivial
    | vars => exact nofun
    | powerFactor => exact ⟨rfl, rfl, nofun, nofun⟩
    | curve c => cases c <;> exact nofun
    | droop => exact nofun

/-- Calls, each made after one that returned. -/
abbrev applyAll {σ : Type} (b : Bus σ) (calls : List ElementCall) : Raising Fault (Site σ) Unit :=
  Raising.each calls (applyElement b)

theorem Shown.run (shown : Shown v₀ calls s) (rest : List ElementCall) :
    (applyAll (deviceBus present capacity) rest).Ends s
      (fun _ s' => Shown v₀ (calls ++ rest) s') fun _ _ => True := by
  induction rest generalizing calls s with
  | nil => rwa [List.append_nil]
  | cons call rest ih =>
      rw [ends_each_cons_iff, List.append_cons]
      exact (shown.step call).mono (fun _ t kept => ih kept) fun _ _ _ => trivial

end Steps

/-! ### All calls -/

section Runs

variable {v₀ : Values} {calls older newer : List ElementCall} {s : Site Values}

/-- The limits recorded are those of the latest calls, in percent of the present WMax. -/
theorem Shown.active_eq (shown : Shown v₀ calls s)
    (based : ∀ q : Quantity, latest calls .genLimW = some q → (pctOf s.core.bus q.scaled).isSome) :
    s.core.core.active = percents v₀ calls s.core.bus := by
  have holding : Holding v₀ (limitsAsked calls) False s.core := shown.homes .limits
  funext slot
  cases slot with
  | any => exact holding.slots.any
  | inj =>
      rw [holding.slots.inj, percents]
      by_cases takes : takesInject v₀ = true
      · rw [if_pos takes, if_pos takes]
      · rw [if_neg takes, if_neg takes, holding.base.pctOf_of_not_takes (by simpa using takes)]
  | gen =>
      rw [percents]
      cases asks : limitsAsked calls .gen with
      | none =>
          rw [Core.active, holding.slots.noGen asks]
          rfl
      | some watts =>
          obtain ⟨q, found, scaled⟩ := Option.map_eq_some_iff.mp asks
          obtain ⟨pct, expressed⟩ := Option.isSome_iff_exists.mp (based q found)
          rw [scaled] at expressed
          rw [Option.bind_some, expressed]
          exact holding.expressed watts pct asks expressed

/-- The merged limit is shown where one of the limits is active. -/
theorem Shown.merged (shown : Shown v₀ calls s)
    (based : ∀ q : Quantity, latest calls .genLimW = some q → (pctOf s.core.bus q.scaled).isSome)
    (slot : Slot) (active : (percents v₀ calls s.core.bus slot).isSome) :
    ShowsMerged v₀ calls s.core.bus := by
  have holding : Holding v₀ (limitsAsked calls) False s.core := shown.homes .limits
  have same := shown.active_eq based
  obtain ⟨limit, found⟩ := Option.isSome_iff_exists.mp active
  have some_ := least_isSome_of found
  have merging := holding.merging (.inr (same ▸ some_))
  obtain ⟨low, is_least⟩ := Option.isSome_iff_exists.mp some_
  rw [Merging, same, is_least] at merging
  exact ⟨merging.1, merging.2.trans is_least.symm⟩

theorem Shown.charged (shown : Shown v₀ calls s) (takes : rateSettingIsSupported v₀ .abs = true)
    (some_ : chargesAsked calls ≠ []) : ShowsCharge calls s.core.bus := by
  have held : ChargesHeld v₀ calls s.core := shown.homes .charge
  have active : s.core.core.activeCharges = chargesAsked calls := by
    rw [Core.activeCharges, held.abs, held.load, if_pos takes]
    rfl
  have supported := shown.supported.trans takes
  obtain ⟨rating, rated⟩ : ∃ rating, s.core.bus .wChaRteMaxRtg = some rating := by
    refine Option.isSome_iff_exists.mp ?_
    simp only [rateSettingIsSupported, Bool.and_eq_true, Direction.rating] at supported
    exact Option.isSome_of_any supported.2
  obtain ⟨low, is_least⟩ := Option.isSome_iff_exists.mp (List.isSome_min?_of_ne_nil some_)
  refine ⟨rating, low, rated, is_least, ?_⟩
  rw [held.written (active ▸ some_) supported rating rated, active, is_least]

theorem setpoint_home (x : Element) (home : x.home = .setpoint) : x = .fixedW ∨ x = .targetW := by
  cases x with
  | fixedW => exact .inl rfl
  | targetW => exact .inr rfl
  | _ => cases home

/-- What stands and is undisturbed is shown. -/
theorem Shown.shows (shown : Shown v₀ calls s) {e : Element} {value : e.Value}
    (stands : Stands v₀ calls e value older newer)
    (undisturbed : Undisturbed v₀ calls older newer e value)
    (based : ∀ q : Quantity, latest calls .genLimW = some q → (pctOf s.core.bus q.scaled).isSome) :
    Shows v₀ calls s.core.bus e value := by
  have found := stands.latest_eq
  have holding : Holding v₀ (limitsAsked calls) False s.core := shown.homes .limits
  cases e with
  | voltVar => exact shown.homes (.curve .qv) value found
  | voltWatt => exact shown.homes (.curve .pv) value found
  | wattVar => exact shown.homes (.curve .qp) value found
  | freqDroop => exact shown.homes .droop value found
  | maxLimW =>
      refine shown.merged based .any ?_
      rw [percents, limitsAsked, found]
      rfl
  | maxLimWInject =>
      have asks : limitsAsked calls .inj = some value.scaled := by
        rw [limitsAsked, found]
        rfl
      rw [Shows]
      split
      · rename_i takes
        refine ⟨holding.base.discharge takes _ asks, ?_⟩
        rw [holding.base.wMax, asks, wMaxFor, if_pos takes]
      · rename_i indirect
        have percent : (pctOf s.core.bus value.scaled).isSome := by
          have enables : takesInject v₀ = true ∨ (pctAfter v₀ older value.scaled).isSome :=
            stands.enables
          have some_ := enables.resolve_left indirect
          rw [holding.base.pctOf_of_not_takes (by simpa using indirect)]
          rw [pctAfter, pctFor, wMaxFor_of_not_takes (by simpa using indirect),
            Function.update_eq_self] at some_
          exact some_
        refine ⟨percent, shown.merged based .inj ?_⟩
        rw [percents, if_neg indirect, asks]
        exact percent
  | maxLimWAbsorb =>
      refine shown.charged stands.enables (List.ne_nil_of_mem (a := value.scaled) ?_)
      rw [chargesAsked, found, List.reduceOption_mem_iff]
      exact List.mem_cons_self
  | loadLimW =>
      have held : ChargesHeld v₀ calls s.core := shown.homes .charge
      refine shown.charged (held.takes (by rw [found]; rfl))
        (List.ne_nil_of_mem (a := value.scaled) ?_)
      rw [chargesAsked, found, List.reduceOption_mem_iff]
      exact List.mem_cons_of_mem _ List.mem_cons_self
  | fixedVar => exact shown.homes .vars value found stands.enables
  | fixedPFInjectW =>
      have held : PowerFactorsHeld calls s := shown.homes .powerFactor
      exact held.shownInj _ (by rw [held.inj, found]; rfl)
  | fixedPFAbsorbW =>
      have held : PowerFactorsHeld calls s := shown.homes .powerFactor
      exact held.shownAbs _ (by rw [held.abs, found]; rfl)
  | fixedW =>
      have held : (setpointOf v₀ calls).Shown s.core.bus := shown.homes .setpoint
      rw [(stands.setpoint .targetW rfl setpoint_home).2 undisturbed, setpointOf_concat] at held
      exact held
  | targetW =>
      have held : (setpointOf v₀ calls).Shown s.core.bus := shown.homes .setpoint
      rw [(stands.setpoint .fixedW rfl fun x home => (setpoint_home x home).symm).2
        undisturbed.1, setpointOf_concat, Setpoint.step] at held
      rw [Shows]
      split
      · rename_i inWatts
        rwa [if_pos inWatts] at held
      · rename_i inPercent
        have enables : TargetInWatts v₀ ∨ (pctAfter v₀ older value.scaled).isSome := stands.enables
        obtain ⟨pct, then_⟩ := Option.isSome_iff_exists.mp (enables.resolve_left inPercent)
        rw [if_neg inPercent, then_] at held
        refine ⟨pct, ?_, held⟩
        rw [shown.pctOf_eq, undisturbed.2 inPercent, then_]
  | genLimW =>
      have percent := based value found
      refine ⟨percent, shown.merged based .gen ?_⟩
      rw [percents, limitsAsked, found]
      exact percent
  | connect =>
      have held : ServiceHeld calls s := shown.homes .service
      exact held.written (.inl (by rw [found]; rfl))
  | energize =>
      have held : ServiceHeld calls s := shown.homes .service
      exact held.written (.inr (by rw [found]; rfl))

/-- What stands and is shown is undisturbed. -/
theorem Shown.undisturbed (shown : Shown v₀ calls s) {e : Element} {value : e.Value}
    (stands : Stands v₀ calls e value older newer) (shows : Shows v₀ calls s.core.bus e value) :
    Undisturbed v₀ calls older newer e value := by
  have setpoint : (setpointOf v₀ calls).Shown s.core.bus := shown.homes .setpoint
  cases e with
  | fixedW =>
      intro withdrawn
      rw [(stands.setpoint .targetW rfl setpoint_home).1 withdrawn] at setpoint
      cases shows.1.symm.trans setpoint
  | targetW =>
      have shares : Element.targetW.replacedBy = some .fixedW := rfl
      obtain ⟨lost, kept⟩ := stands.setpoint .fixedW shares fun x home => (setpoint_home x home).symm
      rw [Shows] at shows
      have raised : s.core.bus .wSetEna = some 1 := by
        split at shows
        · exact shows.1
        · obtain ⟨_, -, shown_⟩ := shows
          exact shown_.1
      have absent : ⟨.fixedW, none⟩ ∉ newer := by
        intro withdrawn
        rw [lost withdrawn] at setpoint
        cases raised.symm.trans setpoint
      refine ⟨absent, fun inPercent => ?_⟩
      rw [if_neg inPercent] at shows
      obtain ⟨pct, now, -, -, register⟩ := shows
      have enables : TargetInWatts v₀ ∨ (pctAfter v₀ older value.scaled).isSome := stands.enables
      obtain ⟨pct', then_⟩ := Option.isSome_iff_exists.mp (enables.resolve_left inPercent)
      rw [kept absent, setpointOf_concat, Setpoint.step, if_neg inPercent, then_] at setpoint
      have same := register.symm.trans setpoint.2.2
      rw [← shown.pctOf_eq, now, then_, same]
  | genLimW =>
      rw [Undisturbed, ← shown.pctOf_eq]
      exact shows.1
  | _ => trivial

end Runs

/-- After successful calls every control that stands is shown by its registers, exactly if none of
them is disturbed. -/
theorem others_expressed_iff (present : ModelId → Bool) (capacity : Curve → Nat) (v₀ : Values)
    (calls : List ElementCall) (s : Site Values)
    (ran : (applyAll (deviceBus present capacity) calls).Returns (Site.fresh v₀) () s) :
    (∀ e value older newer, Stands v₀ calls e value older newer →
      Shows v₀ calls s.core.bus e value) ↔
    ∀ e value older newer, Stands v₀ calls e value older newer →
      Undisturbed v₀ calls older newer e value := by
  have shown : Shown v₀ calls s := ((Shown.fresh v₀).run calls).returns ran
  constructor
  · exact fun shows e value older newer stands => shown.undisturbed stands (shows _ _ _ _ stands)
  · intro undisturbed e value older newer stands
    refine shown.shows stands (undisturbed _ _ _ _ stands) fun q found => ?_
    obtain ⟨older', newer', stands'⟩ := exists_stands found rfl fun _ => trivial
    rw [shown.pctOf_eq]
    exact undisturbed _ _ _ _ stands'

/-! ### An enable that is lowered -/

/-- A device with a setpoint in percent and in watts. -/
def settable : Values
  | .wMaxRtg | .wMax => some 5000
  | .wSetEna | .wSetMod | .wSet | .wSetPct => some 0
  | _ => none

/-- The same device, with a service register. -/
def connectable : Values := Function.update settable .es (some 1)

/-- A target and a disconnection are withdrawn, the one before a fixed power comes and the other
after it. -/
def withdrawing : List ElementCall :=
  [⟨.targetW, some (⟨3000, 0⟩ : Quantity)⟩, ⟨.connect, some false⟩, ⟨.targetW, none⟩,
    ⟨.fixedW, some (5000 : ℤ)⟩, ⟨.connect, none⟩]

/-- Of these calls the fixed power alone stands. -/
theorem withdrawing_stands {v₀ : Values} {e : Element} {value : e.Value}
    {older newer : List ElementCall} (stands : Stands v₀ withdrawing e value older newer) :
    e = .fixedW ∧ newer = [⟨.connect, none⟩] := by
  have again := stands.latest
  have split_ := stands.split
  have short : older.length < 5 := by
    have lengths := congrArg List.length split_
    rw [List.length_append, List.length_cons] at lengths
    simp only [withdrawing, List.length_cons, List.length_nil] at lengths
    omega
  clear stands
  rcases older with _ | ⟨_, _ | ⟨_, _ | ⟨_, _ | ⟨_, _ | ⟨_, older⟩⟩⟩⟩⟩
  · cases split_
    exact absurd rfl (again ⟨.targetW, none⟩ (by simp))
  · cases split_
    exact absurd rfl (again ⟨.connect, none⟩ (by simp))
  · cases split_
  · cases split_
    exact ⟨rfl, rfl⟩
  · cases split_
  · simp only [List.length_cons] at short
    omega

/-- A fixed power that stands is shown, whatever is withdrawn beside it. -/
theorem fixedW_expressed :
    ∃ s : Site Values,
      (applyAll (deviceBus (fun _ => true) fun _ => 10) withdrawing).Returns (Site.fresh connectable) ()
        s ∧ Shows connectable withdrawing s.core.bus .fixedW (5000 : ℤ) := by
  have ran : ∃ s, (applyAll (deviceBus (fun _ => true) fun _ => 10) withdrawing).Returns
      (Site.fresh connectable) () s := ⟨_, Prod.ext (by decide +kernel) rfl⟩
  obtain ⟨s, ran⟩ := ran
  refine ⟨s, ran, (others_expressed_iff (fun _ => true) (fun _ => 10) connectable withdrawing s
    ran).mpr (fun e value older newer stands => ?_) .fixedW (5000 : ℤ) (withdrawing.take 3)
    [⟨.connect, none⟩] ⟨rfl, trivial, ?_, fun done call rest split_ enables => ?_⟩⟩
  · obtain ⟨rfl, rfl⟩ := withdrawing_stands stands
    simp [Undisturbed]
  · simp
  · rcases done with _ | ⟨_, _ | _⟩ <;> cases split_
    exact absurd enables id

/-- opModTargetW replaces opModFixedW, whose withdrawal then lowers the enable of both. -/
theorem withdrawal_lowers_enable : ∃ s : Site Values,
    (applyAll (deviceBus (fun _ => true) fun _ => 10)
      [⟨.fixedW, some (5000 : ℤ)⟩, ⟨.targetW, some (⟨3000, 0⟩ : Quantity)⟩,
        ⟨.fixedW, none⟩]).Returns (Site.fresh settable) () s ∧
    ¬ ∀ e value older newer, Stands settable
      [⟨.fixedW, some (5000 : ℤ)⟩, ⟨.targetW, some (⟨3000, 0⟩ : Quantity)⟩, ⟨.fixedW, none⟩]
      e value older newer → Shows settable
        [⟨.fixedW, some (5000 : ℤ)⟩, ⟨.targetW, some (⟨3000, 0⟩ : Quantity)⟩, ⟨.fixedW, none⟩]
        s.core.bus e value := by
  refine ⟨_, Prod.ext (by decide +kernel) rfl, fun shows => ?_⟩
  have stands : Stands settable
      [⟨.fixedW, some (5000 : ℤ)⟩, ⟨.targetW, some (⟨3000, 0⟩ : Quantity)⟩, ⟨.fixedW, none⟩]
      .targetW ⟨3000, 0⟩ [⟨.fixedW, some (5000 : ℤ)⟩] [⟨.fixedW, none⟩] := by
    refine ⟨rfl, .inl (by decide), by simp, fun done call rest split_ enables => ?_⟩
    rcases done with _ | ⟨_, done⟩
    · cases split_
      exact absurd enables id
    · cases done <;> cases split_
  have raised := shows .targetW ⟨3000, 0⟩ _ _ stands
  rw [Shows, if_pos (by decide)] at raised
  exact absurd raised.1 (by decide +kernel)

end Py20305.SunSpec
