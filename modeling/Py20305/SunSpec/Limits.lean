import Mathlib.Data.List.ReduceOption
import Py20305.SunSpec.Refused

/-!
The limits a device holds.

Over the device that takes every write, `Holding` says what the registers and the record
hold for the limits asked for, and every call that returns keeps it (`Holding.call`):
WMaxLimPct is the least of the percents, a generation limit is expressed in percent of
the present WMax, and WMax is the device's own or the inject limit's.
-/

namespace Py20305.SunSpec

open Raising

/-! ### Requests to a device -/

section Device

variable {present : ModelId → Bool} {capacity : Curve → Nat} {w : World Values}

/-- What holds where a call returns. -/
abbrev Gives {σ : Type} (c : Call σ Unit) (w : World σ) (Q : World σ → Prop) : Prop :=
  c.Ends w (fun _ t => Q t) fun _ _ => True

@[simp] theorem ends_getModel_device {mid : ModelId} {Q : Values → World Values → Prop}
    {E : Fault → World Values → Prop} :
    (getModel (deviceBus present capacity) mid).Ends w Q E ↔
      if present mid then Q w.bus w else E (.connection false) w := by
  unfold getModel
  by_cases there : present mid = true <;> simp [deviceBus, there, onBus]

@[simp] theorem ends_writePoints_device {changes : List (Point × ℚ)}
    {Q : Unit → World Values → Prop} {E : Fault → World Values → Prop} :
    (writePoints (deviceBus present capacity) changes).Ends w Q E ↔
      Q () { w with bus := w.bus.setAll changes } := by
  simp [writePoints, deviceBus, onBus]

@[simp] theorem ends_readPoint_device {p : Point} {Q : Option ℚ → World Values → Prop}
    {E : Fault → World Values → Prop} :
    (onBus ((deviceBus present capacity).readPoint p)).Ends w Q E ↔ Q (w.bus p) w := Iff.rfl

/-- An enable is verified where it is implemented. -/
@[simp] theorem ends_updateEnable_device {p : Point} {v : ℚ} {Q : Unit → World Values → Prop}
    {E : Fault → World Values → Prop} :
    (updateEnable (deviceBus present capacity) p v).Ends w Q E ↔
      if (w.bus p).isSome then Q () { w with bus := w.bus.set p v }
      else E .write { w with bus := w.bus.set p v } := by
  have written : w.bus.setAll [(p, v)] p = some v ↔ (w.bus p).isSome := by
    change w.bus.set p v p = some v ↔ _
    rw [set_self]
    cases w.bus p <;> simp
  simp only [updateEnable, ends_bind_iff, ends_writePoints_device, ends_readPoint_device,
    ends_ite_iff, ends_pure_iff, ends_raise_iff, written]
  cases (w.bus p).isSome with
  | true =>
      simp only [forall_const, not_true_eq_false, false_implies, and_true, if_true]
      rfl
  | false =>
      simp only [Bool.false_eq_true, not_false_eq_true, forall_const, false_implies, true_and,
        if_false]
      rfl

/-! ### The least limit -/

/-- The limits that are there are those of the slots. -/
theorem mem_limits_iff {limits : Slot → Option ℚ} {limit : ℚ} :
    limit ∈ [limits .any, limits .inj, limits .gen].reduceOption ↔
      ∃ slot, limits slot = some limit := by
  rw [List.reduceOption_mem_iff]
  constructor
  · intro mem
    simp only [List.mem_cons, List.not_mem_nil, or_false] at mem
    rcases mem with same | same | same
    · exact ⟨.any, same.symm⟩
    · exact ⟨.inj, same.symm⟩
    · exact ⟨.gen, same.symm⟩
  · rintro ⟨slot, same⟩
    cases slot <;> simp [same]

theorem least_eq_some_iff {limits : Slot → Option ℚ} {low : ℚ} : least limits = some low ↔
    (∃ slot, limits slot = some low) ∧ ∀ slot limit, limits slot = some limit → low ≤ limit := by
  rw [least, List.min?_eq_some_iff, mem_limits_iff]
  exact and_congr_right fun _ => ⟨fun le slot limit same => le limit (mem_limits_iff.mpr ⟨slot, same⟩),
    fun le limit mem => by
      obtain ⟨slot, same⟩ := mem_limits_iff.mp mem
      exact le slot limit same⟩

theorem least_isSome_of {limits : Slot → Option ℚ} {slot : Slot} {limit : ℚ}
    (active : limits slot = some limit) : (least limits).isSome := by
  rw [least, List.isSome_min?_iff]
  exact List.ne_nil_of_mem (mem_limits_iff.mpr ⟨slot, active⟩)

/-! ### The merged limit -/

/-- WMaxLimPct holds the least of the active limits, and is enabled where there is one. -/
def Merging (core : Core) (v : Values) : Prop :=
  match least core.active with
  | none => v .wMaxLimPctEna = some 0
  | some pct => v .wMaxLimPctEna = some 1 ∧ v .wMaxLimPct = some pct

/-- The values that are not WMaxLimPct or its enable are the same. -/
def OffMerge (v v' : Values) : Prop :=
  ∀ p, p ≠ .wMaxLimPctEna → p ≠ .wMaxLimPct → v' p = v p

theorem unimplementedPoints_eq_nil {model : Values} {points : List Point} :
    unimplementedPoints model points = [] ↔ ∀ p ∈ points, (model p).isSome := by
  simp [unimplementedPoints, List.filter_eq_nil_iff, Option.isSome_iff_ne_none]

/-- Where the call returns, the slot is stored and the device holds the merged limit. -/
theorem gives_applyInjectPctSlot (slot : Slot) (enabled : Bool) (pct : Option ℚ)
    (w : World Values) :
    Gives (applyInjectPctSlot (deviceBus present capacity) slot enabled pct) w fun t =>
      t.core = w.core.setSlot slot (enabled, pct) ∧ Merging t.core t.bus ∧ OffMerge w.bus t.bus := by
  simp only [applyInjectPctSlot, record, note, ends_bind_iff, ends_change_iff, writeMergedPct,
    ends_getModel_device, ends_read_iff]
  split
  swap
  · trivial
  cases merged : ({ w with core := w.core.setSlot slot (enabled, pct) } :
      World Values).core.computeMergedInjectPct with
  | none =>
      simp only [ends_updateEnable_device]
      split
      swap
      · trivial
      rename_i there
      refine ⟨trivial, ?_, fun p other _ => set_of_ne _ _ other⟩
      rw [Merging, show least (w.core.setSlot slot (enabled, pct)).active = none from merged]
      exact set_of_isSome there 0
  | some value =>
      simp only [ends_ite_iff, controlUnsupported, ends_raise_iff, ends_bind_iff,
        ends_updateEnable_device, ends_read_iff, ends_change_iff, ends_writePoints_device]
      refine ⟨fun _ => trivial, fun implemented => ?_⟩
      split
      swap
      · trivial
      rename_i there
      refine ⟨trivial, ?_, fun p other other' => ?_⟩
      · rw [Merging, show least (w.core.setSlot slot (enabled, pct)).active = some value from merged]
        rw [ne_eq, not_not, unimplementedPoints_eq_nil] at implemented
        have limit := implemented .wMaxLimPct List.mem_cons_self
        refine ⟨?_, ?_⟩
        · change (w.bus.set .wMaxLimPctEna 1).set .wMaxLimPct value .wMaxLimPctEna = _
          rw [set_of_ne _ _ (by decide), set_of_isSome there]
        · change (w.bus.set .wMaxLimPctEna 1).set .wMaxLimPct value .wMaxLimPct = _
          rw [set_of_isSome]
          rwa [set_of_ne _ _ (by decide)]
      · change (w.bus.set .wMaxLimPctEna 1).set .wMaxLimPct value p = _
        rw [set_of_ne _ _ other', set_of_ne _ _ other]

end Device

/-! ### What is held -/

/-- The limits asked for, after a call that returned. -/
def LimitCall.ask (asked : Slot → Option ℚ) : LimitCall → Slot → Option ℚ
  | .maxLimW enabled pct =>
      Function.update asked .any (if enabled then pct.bind Arg.toNumber else none)
  | .maxLimWInject enabled watts =>
      Function.update asked .inj (if enabled then watts.bind Arg.toNumber else none)
  | .genLimW true none => asked
  | .genLimW enabled watts =>
      Function.update asked .gen (if enabled then watts.bind Arg.toNumber else none)

section Held

variable (v₀ : Values)

/-- An inject limit goes to WDisChaRteMax. -/
def takesInject : Bool := rateSettingIsSupported v₀ .inj

/-- What an inject limit sets WMax to. -/
def mirrored (watts : ℚ) : ℚ :=
  match (v₀ .wMaxRtg).filter (· ≠ 0) with
  | some rtg => min watts rtg
  | none => watts

/-- WMax, with the inject limit. -/
def wMaxFor : Option ℚ → Option ℚ
  | some watts => if takesInject v₀ then (v₀ .wMax).map fun _ => mirrored v₀ watts else v₀ .wMax
  | none => v₀ .wMax

/-- The WMax that is recorded to be put back. -/
def baselineFor : Option ℚ → Option ℚ
  | some _ => if takesInject v₀ then v₀ .wMax else none
  | none => none

/-- The registers of the inject limit, on a device that had the values `v₀`. -/
structure Base (inject baseline : Option ℚ) (v : Values) : Prop where
  rating : v .wMaxRtg = v₀ .wMaxRtg
  dischargeRating : v .wDisChaRteMaxRtg = v₀ .wDisChaRteMaxRtg
  implemented : (v .wDisChaRteMax).isSome = (v₀ .wDisChaRteMax).isSome
  discharge : takesInject v₀ = true → ∀ watts, inject = some watts → v .wDisChaRteMax = some watts
  wMax : v .wMax = wMaxFor v₀ inject
  baseline : baseline = baselineFor v₀ inject

/-- The record of the limits asked for. -/
structure Slots (asked : Slot → Option ℚ) (core : Core) : Prop where
  any : core.active .any = asked .any
  inj : core.active .inj = if takesInject v₀ then none else (asked .inj).bind (pctOf v₀)
  direct : takesInject v₀ = true → core.pLimSlots .inj = (false, none)
  watts : core.genLimWatts = asked .gen
  noGen : asked .gen = none → core.pLimSlots .gen = (false, none)
  gen : ∀ watts, asked .gen = some watts → ∃ pct, core.pLimSlots .gen = (true, some pct)

/-- The generation limit's percent is of the present WMax. -/
def Expressed (asked : Slot → Option ℚ) (core : Core) (v : Values) : Prop :=
  ∀ watts pct, asked .gen = some watts → pctOf v watts = some pct → core.active .gen = some pct

/-- The limits are in the range of their type. -/
structure Sane (asked : Slot → Option ℚ) : Prop where
  any : ∀ pct, asked .any = some pct → 0 ≤ pct ∧ pct ≤ 100
  watts : ∀ slot watts, slot ≠ .any → asked slot = some watts → 0 ≤ watts

/-- What the record and the device hold. `touched` says that WMaxLimPct has been written. -/
structure Holding (asked : Slot → Option ℚ) (touched : Prop) (w : World Values) : Prop where
  base : Base v₀ (asked .inj) w.core.wmaxBaseline w.bus
  slots : Slots v₀ asked w.core
  expressed : Expressed asked w.core w.bus
  merging : touched ∨ (least w.core.active).isSome → Merging w.core w.bus
  sane : Sane asked

end Held

section Steps

variable {v₀ v v' : Values} {asked : Slot → Option ℚ} {core core' : Core} {w t : World Values}
  {inject baseline : Option ℚ} {present : ModelId → Bool} {capacity : Curve → Nat} {touched : Prop}

theorem pctOf_congr (wMax : v' .wMax = v .wMax) (rating : v' .wMaxRtg = v .wMaxRtg) :
    pctOf v' = pctOf v := by
  funext watts
  rw [pctOf, pctOf, percentBase, percentBase, wMax, rating]

theorem OffMerge.pctOf (off : OffMerge v v') : SunSpec.pctOf v' = SunSpec.pctOf v :=
  pctOf_congr (off _ (by decide) (by decide)) (off _ (by decide) (by decide))

theorem Base.offMerge (base : Base v₀ inject baseline v) (off : OffMerge v v') :
    Base v₀ inject baseline v' where
  rating := (off _ (by decide) (by decide)).trans base.rating
  dischargeRating := (off _ (by decide) (by decide)).trans base.dischargeRating
  implemented := (congrArg Option.isSome (off _ (by decide) (by decide))).trans base.implemented
  discharge takes watts limited :=
    (off _ (by decide) (by decide)).trans (base.discharge takes watts limited)
  wMax := (off _ (by decide) (by decide)).trans base.wMax
  baseline := base.baseline

theorem Base.takes (base : Base v₀ inject baseline v) :
    rateSettingIsSupported v .inj = takesInject v₀ := by
  unfold takesInject rateSettingIsSupported
  rw [show v Direction.inj.setting = v .wDisChaRteMax from rfl, base.implemented,
    show v Direction.inj.rating = v .wDisChaRteMaxRtg from rfl, base.dischargeRating]
  rfl

/-- A generation limit that goes through. -/
theorem gives_applyGenLimSlot (watts pct : Option ℚ) (w : World Values) :
    Gives (applyGenLimSlot (deviceBus present capacity) watts pct) w fun t =>
      t.core = { w.core.setSlot .gen (watts.isSome, pct) with
        genLimUnconfirmed := false, genLimWatts := watts } ∧
      Merging t.core t.bus ∧ OffMerge w.bus t.bus := by
  simp only [applyGenLimSlot, record, ends_bind_iff, ends_read_iff, ends_except_iff, ends_change_iff,
    ends_raise_iff]
  refine (gives_applyInjectPctSlot .gen watts.isSome pct w).mono (fun _ t applied => ?_)
    fun _ _ _ => trivial
  obtain ⟨core, merging, off⟩ := applied
  exact ⟨by rw [core], merging, off⟩

/-- The record with the generation limit in its slot. -/
theorem Slots.setGen (slots : Slots v₀ asked core) (watts pct : Option ℚ)
    (both : watts.isSome = pct.isSome) :
    Slots v₀ (Function.update asked .gen watts)
      { core.setSlot .gen (watts.isSome, pct) with
        genLimUnconfirmed := false, genLimWatts := watts } := by
  have others : ∀ slot, slot ≠ .gen → (core.setSlot .gen (watts.isSome, pct)).active slot =
      core.active slot := fun slot other => by
    rw [active_setSlot, Function.update_of_ne other]
  have slot : ∀ s, s ≠ Slot.gen → (core.setSlot .gen (watts.isSome, pct)).pLimSlots s =
      core.pLimSlots s := fun s other => Function.update_of_ne other ..
  have mine : (core.setSlot .gen (watts.isSome, pct)).pLimSlots .gen = (watts.isSome, pct) := by
    simp only [Core.setSlot, Function.update_self]
  refine ⟨?_, ?_, fun takes => ?_, by rw [Function.update_self], fun none_ => ?_, fun g some_ => ?_⟩
  · exact (others .any (by decide)).trans slots.any
  · exact (others .inj (by decide)).trans slots.inj
  · exact (slot .inj (by decide)).trans (slots.direct takes)
  · rw [Function.update_self] at none_
    subst none_
    have absent : pct = none := by simpa using both.symm
    rw [mine, absent]
    rfl
  · rw [Function.update_self] at some_
    subst some_
    obtain ⟨q, rfl⟩ := Option.isSome_iff_exists.mp both.symm
    exact ⟨q, mine⟩

/-- An active generation limit is re-expressed against the present WMax. -/
theorem gives_refreshGenLimPct (slots : Slots v₀ asked w.core)
    (merging : touched ∨ (least w.core.active).isSome → Merging w.core w.bus) :
    Gives (refreshGenLimPct (deviceBus present capacity)) w fun t =>
      Slots v₀ asked t.core ∧ (touched ∨ (least t.core.active).isSome → Merging t.core t.bus) ∧
        Expressed asked t.core t.bus ∧ OffMerge w.bus t.bus ∧
        t.core.wmaxBaseline = w.core.wmaxBaseline := by
  simp only [refreshGenLimPct, ends_bind_iff, ends_read_iff]
  cases limited : w.core.genLimWatts with
  | none =>
      refine ⟨slots, merging, fun watts pct asks => ?_, fun _ _ _ => rfl, rfl⟩
      rw [← slots.watts, limited] at asks
      cases asks
  | some g =>
      simp only [wattsAsPctOfWmax, ends_bind_iff, ends_getModel_device, ends_pure_iff]
      have asks : asked .gen = some g := slots.watts.symm.trans limited
      split
      swap
      · trivial
      cases percent : pctOf w.bus g with
      | none =>
          refine ⟨slots, merging, fun watts pct asks' expressed => ?_, fun _ _ _ => rfl, rfl⟩
          rw [asks, Option.some.injEq] at asks'
          rw [← asks', percent] at expressed
          cases expressed
      | some q =>
          refine (gives_applyGenLimSlot (some g) (some q) w).mono (fun _ t applied => ?_)
            fun _ _ _ => trivial
          obtain ⟨core, merging', off⟩ := applied
          have kept := slots.setGen (some g) (some q) rfl
          rw [← core, ← asks, Function.update_eq_self] at kept
          refine ⟨kept, fun _ => merging', fun watts pct asks' expressed => ?_, off, by rw [core]; rfl⟩
          rw [asks, Option.some.injEq] at asks'
          rw [off.pctOf, ← asks', percent, Option.some.injEq] at expressed
          rw [core, ← expressed]
          simp [Core.active, Core.setSlot]

/-! ### Calls -/

theorem Expressed.of {asked' : Slot → Option ℚ} (expressed : Expressed asked core v)
    (asks : asked' .gen = asked .gen) (slot : core'.active .gen = core.active .gen)
    (percent : SunSpec.pctOf v' = SunSpec.pctOf v) : Expressed asked' core' v' := by
  intro watts pct asks' percent'
  rw [asks] at asks'
  rw [percent] at percent'
  rw [slot]
  exact expressed watts pct asks' percent'

theorem Sane.set (sane : Sane asked) (slot : Slot) (limit : Option ℚ)
    (pct : ∀ value, slot = .any → limit = some value → 0 ≤ value ∧ value ≤ 100)
    (watts : ∀ value, slot ≠ .any → limit = some value → 0 ≤ value) :
    Sane (Function.update asked slot limit) := by
  constructor
  · intro value asks
    by_cases mine : slot = .any
    · subst mine
      rw [Function.update_self] at asks
      exact pct value rfl asks
    · rw [Function.update_of_ne (Ne.symm mine)] at asks
      exact sane.any value asks
  · intro s value other asks
    by_cases mine : s = slot
    · subst mine
      rw [Function.update_self] at asks
      exact watts value other asks
    · rw [Function.update_of_ne mine] at asks
      exact sane.watts s value other asks

/-- The record with opModMaxLimW in its slot. -/
theorem Slots.setAny (slots : Slots v₀ asked core) (enabled : Bool) (pct : Option ℚ) :
    Slots v₀ (Function.update asked .any (if enabled then pct else none))
      (core.setSlot .any (enabled, pct)) := by
  have gen : Function.update asked .any (if enabled then pct else none) .gen = asked .gen :=
    Function.update_of_ne (by decide) ..
  have slot : ∀ s, s ≠ Slot.any → (core.setSlot .any (enabled, pct)).pLimSlots s =
      core.pLimSlots s := fun s other => Function.update_of_ne other ..
  refine ⟨?_, ?_, fun takes => (slot .inj (by decide)).trans (slots.direct takes), ?_, ?_, ?_⟩
  · rw [active_setSlot, Function.update_self, Function.update_self]
  · rw [active_setSlot, Function.update_of_ne (by decide), Function.update_of_ne (by decide)]
    exact slots.inj
  · exact slots.watts.trans gen.symm
  · rw [gen, slot .gen (by decide)]
    exact slots.noGen
  · rw [gen, slot .gen (by decide)]
    exact slots.gen

/-- The record with an inject limit, where it takes its slot. -/
theorem Slots.setInj (slots : Slots v₀ asked core) (indirect : takesInject v₀ = false)
    (enabled : Bool) (pct limit : Option ℚ)
    (same : (if enabled then pct else none) = limit.bind (SunSpec.pctOf v₀)) :
    Slots v₀ (Function.update asked .inj limit) (core.setSlot .inj (enabled, pct)) := by
  have gen : Function.update asked .inj limit .gen = asked .gen :=
    Function.update_of_ne (by decide) ..
  have slot : ∀ s, s ≠ Slot.inj → (core.setSlot .inj (enabled, pct)).pLimSlots s =
      core.pLimSlots s := fun s other => Function.update_of_ne other ..
  refine ⟨?_, ?_, fun takes => ?_, ?_, ?_, ?_⟩
  · rw [active_setSlot, Function.update_of_ne (by decide), Function.update_of_ne (by decide)]
    exact slots.any
  · rw [active_setSlot, Function.update_self, Function.update_self, indirect]
    exact same
  · rw [indirect] at takes
    cases takes
  · exact slots.watts.trans gen.symm
  · rw [gen, slot .gen (by decide)]
    exact slots.noGen
  · rw [gen, slot .gen (by decide)]
    exact slots.gen

/-- The record where the inject limit has no slot. -/
theorem Slots.direct_inj (slots : Slots v₀ asked core) (takes : takesInject v₀ = true)
    (limit : Option ℚ) : Slots v₀ (Function.update asked .inj limit) core := by
  have gen : Function.update asked .inj limit .gen = asked .gen :=
    Function.update_of_ne (by decide) ..
  refine ⟨?_, ?_, slots.direct, slots.watts.trans gen.symm, ?_, ?_⟩
  · rw [Function.update_of_ne (by decide)]
    exact slots.any
  · have none_ := slots.inj
    rw [takes, if_pos rfl] at none_ ⊢
    exact none_
  · rw [gen]
    exact slots.noGen
  · rw [gen]
    exact slots.gen

theorem Holding.maxLimW (holding : Holding v₀ asked touched w) (enabled : Bool) (pct : Option ℚ)
    (percent : ∀ value, enabled = true → pct = some value → 0 ≤ value ∧ value ≤ 100) :
    Gives (applyInjectPctSlot (deviceBus present capacity) .any enabled pct) w fun t =>
      Holding v₀ (Function.update asked .any (if enabled then pct else none)) True t := by
  refine (gives_applyInjectPctSlot .any enabled pct w).mono (fun _ t applied => ?_) fun _ _ _ => trivial
  obtain ⟨core, merging, off⟩ := applied
  have gen : Function.update asked .any (if enabled then pct else none) .gen = asked .gen :=
    Function.update_of_ne (by decide) ..
  refine ⟨?_, ?_, ?_, fun _ => merging, ?_⟩
  · rw [Function.update_of_ne (by decide), core]
    exact holding.base.offMerge off
  · rw [core]
    exact holding.slots.setAny enabled pct
  · refine holding.expressed.of gen ?_ off.pctOf
    rw [core, active_setSlot, Function.update_of_ne (by decide)]
  · refine holding.sane.set .any _ (fun value _ limited => ?_) fun _ other _ => absurd rfl other
    cases enabled with
    | false => cases limited
    | true => exact percent value rfl limited

theorem ends_requirePercent {σ : Type} {w : World σ} {arg : Arg} {Q : ℚ → World σ → Prop}
    {E : Fault → World σ → Prop} : (requirePercent arg).Ends w Q E ↔
      match arg with
      | .number q => if 0 ≤ q ∧ q ≤ 100 then Q q w else E .value w
      | .unusable => E .value w := by
  cases arg with
  | number q =>
      simp only [requirePercent, asNumber, pure_bind]
      split <;> rfl
  | unusable => rfl

theorem ends_requireWatts {σ : Type} {w : World σ} {arg : Arg} {Q : ℚ → World σ → Prop}
    {E : Fault → World σ → Prop} : (requireWatts arg).Ends w Q E ↔
      match arg with
      | .number q => if q < 0 then E .value w else Q q w
      | .unusable => E .value w := by
  cases arg with
  | number q =>
      simp only [requireWatts, asNumber, pure_bind]
      split <;> rfl
  | unusable => rfl

theorem Holding.updatePLim (holding : Holding v₀ asked touched w) (enabled : Bool)
    (pct : Option Arg) : Gives (updatePLim (deviceBus present capacity) enabled pct) w
      (Holding v₀ ((LimitCall.maxLimW enabled pct).ask asked) True) := by
  rcases enabled with _ | _
  · exact holding.maxLimW false (pct.bind Arg.toNumber) nofun
  · rcases pct with _ | arg
    · exact holding.maxLimW true none nofun
    · simp only [SunSpec.updatePLim, ends_bind_iff, ends_requirePercent]
      rcases arg with q | _
      · simp only
        split
        · rename_i range
          refine holding.maxLimW true (some q) fun value _ same => ?_
          cases same
          exact range
        · trivial
      · trivial

/-- The state with the generation limit's slot applied. -/
theorem Holding.setGen (holding : Holding v₀ asked touched w) (watts pct : Option ℚ)
    (both : watts.isSome = pct.isSome) (range : ∀ value, watts = some value → 0 ≤ value)
    (percent : ∀ value q, watts = some value → SunSpec.pctOf w.bus value = some q → pct = some q)
    (core : t.core = { w.core.setSlot .gen (watts.isSome, pct) with
      genLimUnconfirmed := false, genLimWatts := watts })
    (merging : Merging t.core t.bus) (off : OffMerge w.bus t.bus) :
    Holding v₀ (Function.update asked .gen watts) touched t := by
  refine ⟨?_, ?_, fun value q asks expressed => ?_, fun _ => merging, ?_⟩
  · rw [Function.update_of_ne (by decide), core]
    exact holding.base.offMerge off
  · rw [core]
    exact holding.slots.setGen watts pct both
  · rw [Function.update_self] at asks
    rw [off.pctOf] at expressed
    have found := percent value q asks expressed
    subst asks found
    rw [core]
    simp [Core.active, Core.setSlot]
  · exact holding.sane.set .gen watts (by simp) fun value _ limited => range value limited

theorem Holding.updateGenLim (holding : Holding v₀ asked touched w) (enabled : Bool)
    (watts : Option Arg) : Gives (updateGenLim (deviceBus present capacity) enabled watts) w
      (Holding v₀ ((LimitCall.genLimW enabled watts).ask asked) touched) := by
  rcases enabled with _ | _
  · simp only [SunSpec.updateGenLim, record, ends_bind_iff, ends_read_iff, ends_change_iff,
      ends_ite_iff]
    constructor
    · intro _
      refine (gives_applyGenLimSlot none none w).mono (fun _ t applied => ?_) fun _ _ _ => trivial
      obtain ⟨core, merging, off⟩ := applied
      have same : ({ t with core := { t.core with genLimWatts := none } } : World Values).core =
          t.core := by
        rw [core]
      exact holding.setGen none none rfl (by simp) (by simp) (same.trans core) (same ▸ merging) off
    · intro idle
      rw [not_or, not_not] at idle
      have none_ : asked .gen = none := by
        cases limited : asked .gen with
        | none => rfl
        | some g =>
            obtain ⟨q, slot⟩ := holding.slots.gen g limited
            rw [slot] at idle
            cases idle.1
      have same : Function.update asked .gen none = asked := by
        rw [← none_, Function.update_eq_self]
      have unlimited : w.core.genLimWatts = none := holding.slots.watts.trans none_
      change Holding v₀ (Function.update asked .gen none) touched
        { w with core := { w.core with genLimWatts := none } }
      rw [same, ← unlimited]
      exact holding
  · rcases watts with _ | arg
    · exact holding
    · simp only [SunSpec.updateGenLim, ends_bind_iff, ends_requireWatts]
      rcases arg with q | _
      · simp only
        split
        · trivial
        · rename_i range
          simp only [wattsAsPctOfWmax, ends_bind_iff, ends_getModel_device, ends_pure_iff]
          split
          swap
          · trivial
          cases percent : SunSpec.pctOf w.bus q with
          | none => trivial
          | some pct =>
              refine (gives_applyGenLimSlot (some q) (some pct) w).mono (fun _ t applied => ?_)
                fun _ _ _ => trivial
              obtain ⟨core, merging, off⟩ := applied
              refine holding.setGen (some q) (some pct) rfl (fun value same => ?_)
                (fun value p same expressed => ?_) core merging off
              · cases same
                exact not_lt.mp range
              · cases same
                exact percent.symm.trans expressed
      · trivial

/-! ### Inject limits -/

theorem wMaxFor_isSome (inject : Option ℚ) : (wMaxFor v₀ inject).isSome = (v₀ .wMax).isSome := by
  cases inject with
  | none => rfl
  | some watts =>
      rw [wMaxFor]
      by_cases takes : takesInject v₀ = true
      · rw [if_pos takes, Option.isSome_map]
      · rw [if_neg takes]

theorem baselineFor_or {own : ℚ} (inject : Option ℚ) (found : wMaxFor v₀ inject = some own)
    (takes : takesInject v₀ = true) :
    (baselineFor v₀ inject).or (some own) = v₀ .wMax := by
  cases inject with
  | none =>
      rw [baselineFor, Option.none_or, ← found]
      rfl
  | some watts =>
      have there : (v₀ .wMax).isSome = true :=
        (wMaxFor_isSome (some watts)).symm.trans (congrArg Option.isSome found)
      obtain ⟨wmax, implemented⟩ := Option.isSome_iff_exists.mp there
      rw [baselineFor, if_pos takes, implemented, Option.some_or]

theorem gives_requireUint16Watts {σ : Type} (watts : ℚ) (wSf : Option ℚ) (w : World σ) :
    Gives (requireUint16Watts watts wSf) w (· = w) := by
  cases wSf with
  | none => trivial
  | some sf =>
      simp only [requireUint16Watts]
      split
      · rfl
      · trivial

theorem ends_mirrorInjectOntoWmax_of_none {σ : Type} {w : World σ} {watts : ℚ}
    {Q : List (Point × ℚ) → World σ → Prop} {E : Fault → World σ → Prop} (absent : v .wMax = none) :
    (mirrorInjectOntoWmax v watts).Ends w Q E ↔ Q [] w := by
  rw [mirrorInjectOntoWmax, absent]
  rfl

theorem ends_mirrorInjectOntoWmax_of_some {σ : Type} {w : World σ} {watts own : ℚ}
    {Q : List (Point × ℚ) → World σ → Prop} {E : Fault → World σ → Prop}
    (rating : v .wMaxRtg = v₀ .wMaxRtg) (found : v .wMax = some own) :
    (mirrorInjectOntoWmax v watts).Ends w Q E ↔
      Q [(.wMax, mirrored v₀ watts)]
        { w with core := { w.core with wmaxBaseline := w.core.wmaxBaseline.or (some own) } } := by
  rw [mirrorInjectOntoWmax, found, rating]
  simp only [record, ends_bind_iff, ends_change_iff, mirrored]
  cases (v₀ .wMaxRtg).filter (· ≠ 0) <;> rfl

/-- The registers of an inject limit have changed, and the generation limit is re-expressed. -/
theorem Holding.refresh {u : World Values} (holding : Holding v₀ asked touched w)
    (takes : takesInject v₀ = true) (inject : Option ℚ)
    (others : ∀ p, p ≠ .wDisChaRteMax → p ≠ .wMax → u.bus p = w.bus p)
    (slots : u.core.pLimSlots = w.core.pLimSlots) (watts : u.core.genLimWatts = w.core.genLimWatts) :
    Gives (refreshGenLimPct (deviceBus present capacity)) u fun t =>
      Slots v₀ (Function.update asked .inj inject) t.core ∧
        (touched ∨ (least t.core.active).isSome → Merging t.core t.bus) ∧
        Expressed (Function.update asked .inj inject) t.core t.bus ∧ OffMerge u.bus t.bus ∧
        t.core.wmaxBaseline = u.core.wmaxBaseline := by
  have active : u.core.active = w.core.active := by
    funext s
    rw [Core.active, Core.active, slots]
  have same : Slots v₀ asked u.core := by
    obtain ⟨any, inj, direct, limit, noGen, gen⟩ := holding.slots
    refine ⟨by rw [active, any], by rw [active, inj], fun takes => by rw [slots, direct takes],
      watts.trans limit, fun none_ => by rw [slots, noGen none_], fun g some_ => ?_⟩
    rw [slots]
    exact gen g some_
  refine gives_refreshGenLimPct (same.direct_inj takes inject) fun some_ => ?_
  rw [active] at some_
  have before := holding.merging some_
  unfold Merging at before ⊢
  rw [active, others _ (by decide) (by decide), others _ (by decide) (by decide)]
  exact before

theorem Holding.isSome_wDisChaRteMax (holding : Holding v₀ asked touched w)
    (takes : takesInject v₀ = true) : (w.bus .wDisChaRteMax).isSome := by
  have supported := holding.base.takes.trans takes
  simp only [rateSettingIsSupported, Bool.and_eq_true] at supported
  exact supported.1

/-- An inject limit that WDisChaRteMax takes. -/
theorem Holding.applyInject (holding : Holding v₀ asked touched w) (takes : takesInject v₀ = true)
    (watts : ℚ) (range : 0 ≤ watts) :
    Gives (applyInject (deviceBus present capacity) w.bus watts) w
      (Holding v₀ (Function.update asked .inj (some watts)) touched) := by
  have wMax := holding.base.wMax
  have discharge := holding.isSome_wDisChaRteMax takes
  -- What the write leaves is the base of the new limit.
  have written : ∀ {u : World Values}, (∀ p, p ≠ .wDisChaRteMax → p ≠ .wMax → u.bus p = w.bus p) →
      u.bus .wDisChaRteMax = some watts → u.bus .wMax = wMaxFor v₀ (some watts) →
      u.core.pLimSlots = w.core.pLimSlots → u.core.genLimWatts = w.core.genLimWatts →
      u.core.wmaxBaseline = baselineFor v₀ (some watts) →
      Gives (refreshGenLimPct (deviceBus present capacity)) u
        (Holding v₀ (Function.update asked .inj (some watts)) touched) := by
    intro u others discharge' wMax' slots watts' baseline'
    have base : Base v₀ (some watts) u.core.wmaxBaseline u.bus :=
      { rating := (others _ (by decide) (by decide)).trans holding.base.rating
        dischargeRating := (others _ (by decide) (by decide)).trans holding.base.dischargeRating
        implemented := by
          rw [← holding.base.implemented, discharge, discharge', Option.isSome_some]
        discharge := fun _ value same => by rw [discharge', same]
        wMax := wMax'
        baseline := baseline' }
    refine (holding.refresh takes (some watts) others slots watts').mono
      (fun _ t refreshed => ?_) fun _ _ _ => trivial
    obtain ⟨slots', merging', expressed, off, baseline''⟩ := refreshed
    refine ⟨?_, slots', expressed, merging', ?_⟩
    · rw [Function.update_self, baseline'']
      exact base.offMerge off
    · refine holding.sane.set .inj _ (by simp) fun value _ limited => ?_
      cases limited
      exact range
  simp only [SunSpec.applyInject, record, ends_bind_iff, ends_change_iff, ends_writePoints_device]
  refine (gives_requireUint16Watts watts _ w).mono (fun _ u same => ?_) fun _ _ _ => trivial
  subst same
  have wrote : ∀ changes : List (Point × ℚ), (∀ c ∈ changes, c.1 ≠ .wDisChaRteMax) →
      u.bus.setAll ((.wDisChaRteMax, watts) :: changes) .wDisChaRteMax = some watts := by
    intro changes others
    rw [Values.setAll, List.foldl_cons, ← Values.setAll, setAll_of_notMem others]
    exact set_of_isSome discharge watts
  have kept : u.bus.set .wDisChaRteMax watts .wMax = u.bus .wMax := set_of_ne _ _ (by decide)
  cases found : u.bus .wMax with
  | none =>
      rw [ends_mirrorInjectOntoWmax_of_none found]
      have absent : v₀ .wMax = none := by
        rw [← Option.isNone_iff_eq_none, ← Option.not_isSome, ← wMaxFor_isSome (asked .inj), ← wMax,
          found]
        rfl
      refine written (fun p other _ => set_of_ne _ _ other) (wrote [] (by simp)) ?_ rfl rfl ?_
      · rw [wMaxFor, if_pos takes, absent]
        exact kept.trans found
      · rw [baselineFor, if_pos takes, absent]
        refine holding.base.baseline.trans ?_
        cases asked .inj with
        | none => rfl
        | some _ => rw [baselineFor, if_pos takes, absent]
  | some own =>
      have held : (v₀ .wMax).isSome := by
        rw [← wMaxFor_isSome (asked .inj), ← wMax, found]
        rfl
      obtain ⟨wmax, implemented⟩ := Option.isSome_iff_exists.mp held
      rw [ends_mirrorInjectOntoWmax_of_some holding.base.rating found]
      refine written (fun p other other' => ?_) (wrote _ ?_) ?_ rfl rfl ?_
      · exact (set_of_ne _ _ other').trans (set_of_ne _ _ other)
      · simp
      · rw [wMaxFor, if_pos takes, implemented]
        change (u.bus.set .wDisChaRteMax watts).set .wMax (mirrored v₀ watts) .wMax = _
        rw [set_of_isSome]
        · rfl
        · rw [kept, found]
          rfl
      · change u.core.wmaxBaseline.or (some own) = _
        rw [holding.base.baseline, baselineFor_or (asked .inj) (wMax.symm.trans found) takes,
          baselineFor, if_pos takes]

theorem wMaxFor_of_baselineFor {inject : Option ℚ} (unmoved : baselineFor v₀ inject = none) :
    wMaxFor v₀ inject = v₀ .wMax := by
  cases inject with
  | none => rfl
  | some watts =>
      by_cases takes : takesInject v₀ = true
      · rw [baselineFor, if_pos takes] at unmoved
        rw [wMaxFor, if_pos takes, unmoved]
        rfl
      · rw [wMaxFor, if_neg takes]

theorem wMaxFor_of_not_takes (takes : takesInject v₀ = false) (inject : Option ℚ) :
    wMaxFor v₀ inject = v₀ .wMax := by
  cases inject with
  | none => rfl
  | some watts => rw [wMaxFor, takes]; rfl

theorem baselineFor_of_not_takes (takes : takesInject v₀ = false) (inject : Option ℚ) :
    baselineFor v₀ inject = none := by
  cases inject with
  | none => rfl
  | some watts => rw [baselineFor, takes]; rfl

/-- Where WDisChaRteMax takes no limit, the inject limit changes nothing of the base. -/
theorem Base.not_takes (base : Base v₀ inject baseline v) (takes : takesInject v₀ = false)
    (inject' : Option ℚ) : Base v₀ inject' baseline v where
  rating := base.rating
  dischargeRating := base.dischargeRating
  implemented := base.implemented
  discharge takes' := by rw [takes] at takes'; cases takes'
  wMax := by rw [base.wMax, wMaxFor_of_not_takes takes, wMaxFor_of_not_takes takes]
  baseline := by
    rw [base.baseline, baselineFor_of_not_takes takes, baselineFor_of_not_takes takes]

/-- The inject limit's slot is applied. -/
theorem Holding.setInj {pct limit : Option ℚ} {enabled : Bool} (holding : Holding v₀ asked touched w)
    (takes : takesInject v₀ = false)
    (same : (if enabled then pct else none) = limit.bind (SunSpec.pctOf v₀))
    (range : ∀ value, limit = some value → 0 ≤ value) :
    Gives (applyInjectPctSlot (deviceBus present capacity) .inj enabled pct) w
      (Holding v₀ (Function.update asked .inj limit) touched) := by
  refine (gives_applyInjectPctSlot .inj enabled pct w).mono (fun _ t applied => ?_)
    fun _ _ _ => trivial
  obtain ⟨core, merging, off⟩ := applied
  refine ⟨?_, ?_, ?_, fun _ => merging, ?_⟩
  · rw [Function.update_self, core]
    exact (holding.base.offMerge off).not_takes takes limit
  · rw [core]
    exact holding.slots.setInj takes enabled pct limit same
  · refine holding.expressed.of (Function.update_of_ne (by decide) ..) ?_ off.pctOf
    rw [core, active_setSlot, Function.update_of_ne (by decide)]
  · exact holding.sane.set .inj _ nofun fun value _ limited => range value limited

/-- Only the direct setting of the record has changed. -/
theorem Holding.of_pLimWInj (holding : Holding v₀ asked touched w) (direct : Option ℚ) :
    Holding v₀ asked touched { w with core := { w.core with pLimWInj := direct } } :=
  ⟨holding.base, ⟨holding.slots.any, holding.slots.inj, holding.slots.direct, holding.slots.watts,
    holding.slots.noGen, holding.slots.gen⟩, holding.expressed, holding.merging, holding.sane⟩

theorem Base.pctOf_of_not_takes (base : Base v₀ inject baseline v) (takes : takesInject v₀ = false) :
    SunSpec.pctOf v = SunSpec.pctOf v₀ :=
  pctOf_congr (base.wMax.trans (wMaxFor_of_not_takes takes inject)) base.rating

/-- An inject limit that WDisChaRteMax does not take. -/
theorem Holding.applyInjectWithoutRegister (holding : Holding v₀ asked touched w)
    (takes : takesInject v₀ = false) (watts : ℚ) (range : 0 ≤ watts) :
    Gives (applyInjectWithoutRegister (deviceBus present capacity) watts) w
      (Holding v₀ (Function.update asked .inj (some watts)) touched) := by
  have within_ : ∀ value, some watts = some value → 0 ≤ value := fun value same => by
    cases same
    exact range
  simp only [SunSpec.applyInjectWithoutRegister, record, wattsAsPctOfWmax, ends_bind_iff,
    ends_change_iff, ends_getModel_device, ends_pure_iff]
  have percent := holding.base.pctOf_of_not_takes takes
  have cleared := holding.of_pLimWInj none
  split
  swap
  · trivial
  cases found : SunSpec.pctOf w.bus watts with
  | some pct =>
      exact cleared.setInj takes (by rw [← percent]; exact found.symm) within_
  | none =>
      -- Without a base no inject limit has ever been expressed.
      have never : ∀ value, SunSpec.pctOf v₀ value = none := by
        intro value
        rw [← percent]
        rw [SunSpec.pctOf, Option.map_eq_none_iff] at found ⊢
        exact found
      refine ⟨?_, ?_, ?_, cleared.merging, holding.sane.set .inj _ (by simp) fun value _ limited =>
        within_ value limited⟩
      · rw [Function.update_self]
        exact cleared.base.not_takes takes _
      · have gen : Function.update asked .inj (some watts) .gen = asked .gen :=
          Function.update_of_ne (by decide) ..
        have slots := cleared.slots
        refine ⟨?_, ?_, slots.direct, slots.watts.trans gen.symm, ?_, ?_⟩
        · rw [Function.update_of_ne (by decide)]
          exact slots.any
        · have before := slots.inj
          rw [takes] at before ⊢
          rw [Function.update_self, before]
          cases asked .inj with
          | none => exact (never watts).symm
          | some value => exact (never value).trans (never watts).symm
        · rw [gen]
          exact slots.noGen
        · rw [gen]
          exact slots.gen
      · exact cleared.expressed.of (Function.update_of_ne (by decide) ..) rfl rfl

/-- Where the inject limit has neither a baseline nor a slot, its withdrawal leaves the rest. -/
theorem Holding.noInject (holding : Holding v₀ asked touched w) (baseline : w.core.wmaxBaseline = none)
    (idle : w.core.pLimSlots .inj = (false, none)) :
    Holding v₀ (Function.update asked .inj none) touched w := by
  have gen : Function.update asked .inj none .gen = asked .gen := Function.update_of_ne (by decide) ..
  have base := holding.base
  have slots := holding.slots
  refine ⟨?_, ⟨?_, ?_, slots.direct, slots.watts.trans gen.symm, ?_, ?_⟩, ?_, holding.merging,
    holding.sane.set .inj none nofun nofun⟩
  · rw [Function.update_self]
    refine ⟨base.rating, base.dischargeRating, base.implemented, fun _ _ => nofun, ?_, baseline⟩
    exact base.wMax.trans (wMaxFor_of_baselineFor (base.baseline.symm.trans baseline))
  · rw [Function.update_of_ne (by decide)]
    exact slots.any
  · rw [Function.update_self, Option.bind_none, ite_self, Core.active, idle]
    rfl
  · rw [gen]
    exact slots.noGen
  · rw [gen]
    exact slots.gen
  · exact holding.expressed.of gen rfl rfl

theorem Holding.clearInject (holding : Holding v₀ asked touched w) (enabled : Bool) :
    Gives (clearInject (deviceBus present capacity) enabled) w
      (Holding v₀ (Function.update asked .inj none) touched) := by
  suffices rest : ∀ u : World Values, Holding v₀ asked touched u →
      Gives (do
        SunSpec.restoreMirroredWmax (deviceBus present capacity)
        if (← read).core.pLimSlots .inj ≠ (false, none) then
          applyInjectPctSlot (deviceBus present capacity) .inj enabled none) u
        (Holding v₀ (Function.update asked .inj none) touched) from
    rest _ (holding.of_pLimWInj none)
  intro u holding
  simp only [restoreMirroredWmax, record, ends_bind_iff, ends_read_iff]
  cases recorded : u.core.wmaxBaseline with
  | none =>
      simp only [ends_pure_iff, ends_ite_iff]
      constructor
      · intro slot
        by_cases takes : takesInject v₀ = true
        · exact absurd (holding.slots.direct takes) slot
        · rw [Bool.not_eq_true] at takes
          exact holding.setInj takes (ite_self _) (by simp)
      · intro idle
        exact holding.noInject recorded (not_not.mp idle)
  | some baseline =>
      have found := recorded.symm.trans holding.base.baseline
      have takes : takesInject v₀ = true := by
        by_contra indirect
        rw [baselineFor_of_not_takes (by simpa using indirect)] at found
        cases found
      have own : v₀ .wMax = some baseline := by
        cases asks : asked .inj with
        | none => rw [asks] at found; cases found
        | some watts => rw [asks, baselineFor, if_pos takes] at found; exact found.symm
      have there : (u.bus .wMax).isSome := by
        rw [holding.base.wMax, wMaxFor_isSome, own]
        rfl
      simp only [ends_bind_iff, ends_getModel_device, ends_writePoints_device, ends_change_iff,
        ends_ite_iff]
      split
      swap
      · trivial
      refine (holding.refresh (u := { u with bus := u.bus.set .wMax baseline }) takes none
        (fun _ _ => set_of_ne u.bus baseline) rfl rfl).mono (fun _ t refreshed => ?_)
          fun _ _ _ => trivial
      obtain ⟨slots, merging, expressed, off, -⟩ := refreshed
      have base : Base v₀ none none (u.bus.set .wMax baseline) :=
        { rating := (set_of_ne _ _ (by decide)).trans holding.base.rating
          dischargeRating := (set_of_ne _ _ (by decide)).trans holding.base.dischargeRating
          implemented := (congrArg Option.isSome (set_of_ne _ _ (by decide))).trans
            holding.base.implemented
          discharge := by simp
          wMax := (set_of_isSome there _).trans own.symm
          baseline := rfl }
      refine ⟨fun slot => absurd (slots.direct takes) slot, fun _ => ⟨?_, ?_, expressed, merging,
        holding.sane.set .inj none (by simp) (by simp)⟩⟩
      · rw [Function.update_self]
        exact base.offMerge off
      · exact ⟨slots.any, slots.inj, slots.direct, slots.watts, slots.noGen, slots.gen⟩

theorem Holding.updatePLimInj (holding : Holding v₀ asked touched w) (enabled : Bool)
    (watts : Option Arg) : Gives (updatePLimInj (deviceBus present capacity) enabled watts) w
      (Holding v₀ ((LimitCall.maxLimWInject enabled watts).ask asked) touched) := by
  rcases enabled with _ | _
  · exact holding.clearInject false
  · rcases watts with _ | arg
    · exact holding.clearInject true
    · simp only [SunSpec.updatePLimInj, ends_bind_iff, ends_requireWatts]
      rcases arg with q | _
      · simp only [ends_getModel_device, ends_ite_iff]
        split
        · trivial
        · rename_i range
          split
          swap
          · trivial
          rw [holding.base.takes]
          refine ⟨fun takes => holding.applyInject takes q (not_lt.mp range), fun indirect => ?_⟩
          exact holding.applyInjectWithoutRegister (by simpa using indirect) q (not_lt.mp range)
      · trivial

/-! ### Runs -/

/-- The call writes WMaxLimPct or its enable, whatever is held. -/
def LimitCall.touches : LimitCall → Prop
  | .maxLimW _ _ => True
  | _ => False

theorem Holding.mono {touched' : Prop} (holding : Holding v₀ asked touched w)
    (less : touched' → touched) : Holding v₀ asked touched' w :=
  { holding with merging := fun some_ => holding.merging (some_.imp_left less) }

/-- Every call that returns keeps what is held, for what is then asked. -/
theorem Holding.call (holding : Holding v₀ asked touched w) (call : LimitCall) :
    Gives (call.run (deviceBus present capacity)) w
      (Holding v₀ (call.ask asked) (touched ∨ call.touches)) := by
  cases call with
  | maxLimW enabled pct =>
      exact (holding.updatePLim enabled pct).mono (fun _ _ holding => holding.mono fun _ => trivial)
        fun _ _ _ => trivial
  | maxLimWInject enabled watts =>
      exact (holding.updatePLimInj enabled watts).mono
        (fun _ _ holding => holding.mono fun some_ => some_.resolve_right id) fun _ _ _ => trivial
  | genLimW enabled watts =>
      exact (holding.updateGenLim enabled watts).mono
        (fun _ _ holding => holding.mono fun some_ => some_.resolve_right id) fun _ _ _ => trivial

/-- A fresh connector holds no limit. -/
theorem Holding.fresh (v₀ : Values) :
    Holding v₀ (fun _ => none) False (World.fresh v₀) where
  base := ⟨rfl, rfl, rfl, fun _ _ => nofun, rfl, rfl⟩
  slots := ⟨rfl, by cases takesInject v₀ <;> rfl, fun _ => rfl, rfl, fun _ => rfl, nofun⟩
  expressed _ _ := nofun
  merging some_ := by
    rcases some_ with never | some_
    · exact never.elim
    · cases some_
  sane := ⟨nofun, nofun⟩

/-- The limits asked for by a sequence of calls. -/
def askedBy (calls : List LimitCall) : Slot → Option ℚ :=
  calls.foldl (fun asked call => call.ask asked) fun _ => none

/-- A sequence of calls that return leaves what it asked for. -/
theorem Holding.each (holding : Holding v₀ asked touched w) (calls : List LimitCall) :
    Gives (Raising.each calls (·.run (deviceBus present capacity))) w
      (Holding v₀ (calls.foldl (fun asked call => call.ask asked) asked)
        (touched ∨ ∃ call ∈ calls, call.touches)) := by
  induction calls generalizing asked touched w with
  | nil => exact holding.mono (by simp)
  | cons call rest ih =>
      rw [Gives, ends_each_cons_iff]
      refine (holding.call call).mono (fun _ t kept => ?_) fun _ _ _ => trivial
      refine (ih kept).mono (fun _ u held => held.mono fun some_ => ?_) fun _ _ _ => trivial
      simpa [or_assoc] using some_

end Steps

end Py20305.SunSpec
