import Mathlib.Data.Fintype.Basic
import Py20305.Connectors.Modes

/-!
The modes of the event processor and the elements of a DERControlBase.

`Mode` names a control for supersession, the mode tracker and the fallback, which only ask of a
base what it sets. `ControlBase.present` is what it sets; the modes it reports, the modes of its
calls and what is left of it without some modes are those of `Sep.Resources`.
-/

namespace Py20305.Modes

def allModes : List Mode :=
  [.opModConnect, .opModDeltaVar, .opModDeltaW, .opModEnergize, .opModFixedPfabsorbW,
    .opModFixedPfinjectW, .opModFixedV, .opModFixedVar, .opModFixedW, .opModFreqDroop,
    .opModFreqWatt, .opModGridConnectPermit, .opModHfrtmayTrip, .opModHfrtmustTrip,
    .opModHvrtmayTrip, .opModHvrtmomentaryCessation, .opModHvrtmustTrip, .opModIslandPermit,
    .opModLfrtmayTrip, .opModLfrtmustTrip, .opModLvrtmayTrip, .opModLvrtmomentaryCessation,
    .opModLvrtmustTrip, .opModMaxLimPctVaabsorb, .opModMaxLimPctVainject,
    .opModMaxLimPctVarAbsorb, .opModMaxLimPctVarInject, .opModMaxLimPctWabsorb,
    .opModMaxLimVarAbsorb, .opModMaxLimVarInject, .opModMaxLimW, .opModMaxLimWabsorb,
    .opModMaxLimWinject, .opModTargetV, .opModTargetVar, .opModTargetW, .opModVoltVar,
    .opModVoltWatt, .opModWattPf, .opModWattVar, .rampTms, .opModExpLimW, .opModImpLimW,
    .opModGenLimW, .opModLoadLimW]

instance : Fintype Mode := Fintype.ofList allModes fun m => by cases m <;> decide

/-- The name of a mode, as the tables have it. -/
def modeName : Mode → String
  | .opModConnect => "op_mod_connect"
  | .opModDeltaVar => "op_mod_delta_var"
  | .opModDeltaW => "op_mod_delta_w"
  | .opModEnergize => "op_mod_energize"
  | .opModFixedPfabsorbW => "op_mod_fixed_pfabsorb_w"
  | .opModFixedPfinjectW => "op_mod_fixed_pfinject_w"
  | .opModFixedV => "op_mod_fixed_v"
  | .opModFixedVar => "op_mod_fixed_var"
  | .opModFixedW => "op_mod_fixed_w"
  | .opModFreqDroop => "op_mod_freq_droop"
  | .opModFreqWatt => "op_mod_freq_watt"
  | .opModGridConnectPermit => "op_mod_grid_connect_permit"
  | .opModHfrtmayTrip => "op_mod_hfrtmay_trip"
  | .opModHfrtmustTrip => "op_mod_hfrtmust_trip"
  | .opModHvrtmayTrip => "op_mod_hvrtmay_trip"
  | .opModHvrtmomentaryCessation => "op_mod_hvrtmomentary_cessation"
  | .opModHvrtmustTrip => "op_mod_hvrtmust_trip"
  | .opModIslandPermit => "op_mod_island_permit"
  | .opModLfrtmayTrip => "op_mod_lfrtmay_trip"
  | .opModLfrtmustTrip => "op_mod_lfrtmust_trip"
  | .opModLvrtmayTrip => "op_mod_lvrtmay_trip"
  | .opModLvrtmomentaryCessation => "op_mod_lvrtmomentary_cessation"
  | .opModLvrtmustTrip => "op_mod_lvrtmust_trip"
  | .opModMaxLimPctVaabsorb => "op_mod_max_lim_pct_vaabsorb"
  | .opModMaxLimPctVainject => "op_mod_max_lim_pct_vainject"
  | .opModMaxLimPctVarAbsorb => "op_mod_max_lim_pct_var_absorb"
  | .opModMaxLimPctVarInject => "op_mod_max_lim_pct_var_inject"
  | .opModMaxLimPctWabsorb => "op_mod_max_lim_pct_wabsorb"
  | .opModMaxLimVarAbsorb => "op_mod_max_lim_var_absorb"
  | .opModMaxLimVarInject => "op_mod_max_lim_var_inject"
  | .opModMaxLimW => "op_mod_max_lim_w"
  | .opModMaxLimWabsorb => "op_mod_max_lim_wabsorb"
  | .opModMaxLimWinject => "op_mod_max_lim_winject"
  | .opModTargetV => "op_mod_target_v"
  | .opModTargetVar => "op_mod_target_var"
  | .opModTargetW => "op_mod_target_w"
  | .opModVoltVar => "op_mod_volt_var"
  | .opModVoltWatt => "op_mod_volt_watt"
  | .opModWattPf => "op_mod_watt_pf"
  | .opModWattVar => "op_mod_watt_var"
  | .rampTms => "ramp_tms"
  | .opModExpLimW => "opModExpLimW"
  | .opModImpLimW => "opModImpLimW"
  | .opModGenLimW => "opModGenLimW"
  | .opModLoadLimW => "opModLoadLimW"

section Present

variable {α : Type}

def ControlBase.sets (base : ControlBase α) (name : String) : Bool :=
  (base.fields name).isSome || ((doeLimits base).get? name).isSome ||
    (name == "ramp_tms" && base.rampTms.isSome)

/-- What the base sets. -/
def ControlBase.present (base : ControlBase α) : DercontrolBase :=
  ⟨Finset.univ.filter fun m => base.sets (modeName m) = true⟩

/-- The comparisons of the names with the tables, evaluated once. -/
theorem names_agree :
    Function.Injective modeName ∧
      (∀ m : Mode, m.isTracked = true ↔
        modeName m ∈ fieldToBit.map Prod.fst ∨ modeName m ∈ doeLimitNames) ∧
      (∀ m : Mode, m.hasElement = true ↔
        (∃ e ∈ controlElements, e.field = modeName m) ∨ modeName m ∈ doeLimitNames) ∧
      (∀ name ∈ doeLimitNames, name ∉ controlFields) ∧
      (∀ e ∈ controlElements, e.field ∈ controlFields) ∧
      "ramp_tms" ∉ controlFields ∧ ∀ m : Mode, modeName m ≠ "other_element" := by
  decide +kernel

theorem modeName_injective : Function.Injective modeName := names_agree.1

theorem isTracked_iff (m : Mode) : m.isTracked = true ↔
    modeName m ∈ fieldToBit.map Prod.fst ∨ modeName m ∈ doeLimitNames :=
  names_agree.2.1 m

theorem hasElement_iff (m : Mode) : m.hasElement = true ↔
    (∃ e ∈ controlElements, e.field = modeName m) ∨ modeName m ∈ doeLimitNames :=
  names_agree.2.2.1 m

theorem limit_no_field : ∀ name ∈ doeLimitNames, name ∉ controlFields := names_agree.2.2.2.1

theorem mem_present {base : ControlBase α} {m : Mode} :
    m ∈ base.present.present ↔ base.sets (modeName m) = true := by
  simp [ControlBase.present]

/-- A limit is set by its element only. -/
theorem sets_limit {base : ControlBase α} {name : String} (limit : name ∈ doeLimitNames) :
    base.sets name = ((doeLimits base).get? name).isSome := by
  have field : (base.fields name).isSome = false := by
    cases found : base.fields name with
    | none => rfl
    | some value => exact absurd (base.known name (by rw [found]; rfl)) (limit_no_field name limit)
  have ramp : (name == "ramp_tms") = false := by
    rw [beq_eq_false_iff_ne]
    rintro rfl
    revert limit
    decide
  simp [ControlBase.sets, field, ramp]

/-- A control is set by its field only. -/
theorem sets_field {base : ControlBase α} {name : String} (control : name ∈ controlFields) :
    base.sets name = (base.fields name).isSome := by
  have limit : (doeLimits base).get? name = none := by
    cases found : (doeLimits base).get? name with
    | none => rfl
    | some pair => exact absurd control (limit_no_field name (mem_names_of_limit found))
  have ramp : (name == "ramp_tms") = false := by
    rw [beq_eq_false_iff_ne]
    rintro rfl
    exact names_agree.2.2.2.2.2.1 control
  simp [ControlBase.sets, limit, ramp]

theorem field_control : ∀ e ∈ controlElements, e.field ∈ controlFields := names_agree.2.2.2.2.1

theorem mem_getActiveModeNames_present (base : ControlBase α) (m : Mode) :
    m ∈ Py20305.getActiveModeNames base.present ↔ modeName m ∈ getActiveModeNames base := by
  rw [Py20305.mem_getActiveModeNames, mem_present, isTracked_iff, mem_getActiveModeNames_iff,
    ← Option.isSome_iff_exists]
  constructor
  · rintro ⟨set, tracked | limit⟩
    · obtain ⟨e, listed, field⟩ := bit_has_element _ tracked
      rw [sets_field (field ▸ field_control e listed)] at set
      exact .inl ⟨tracked, set⟩
    · rw [sets_limit limit] at set
      exact .inr set
  · rintro (⟨tracked, set⟩ | set)
    · obtain ⟨e, listed, field⟩ := bit_has_element _ tracked
      exact ⟨by rw [sets_field (field ▸ field_control e listed), set], .inl tracked⟩
    · obtain ⟨pair, found⟩ := Option.isSome_iff_exists.mp set
      have limit := mem_names_of_limit found
      exact ⟨by rw [sets_limit limit, set], .inr limit⟩

theorem mem_translatedModes_present (base : ControlBase α) (curves : List (Dercurve α))
    (m : Mode) : m ∈ translatedModes base.present ↔ CallFor base curves (modeName m) := by
  rw [mem_translatedModes, mem_present, hasElement_iff, callFor_iff, ← Option.isSome_iff_exists]
  constructor
  · rintro ⟨set, ⟨e, listed, field⟩ | limit⟩
    · rw [sets_field (field ▸ field_control e listed)] at set
      exact .inl ⟨e, listed, field, set⟩
    · rw [sets_limit limit] at set
      exact .inr set
  · rintro (⟨e, listed, field, set⟩ | set)
    · exact ⟨by rw [sets_field (field ▸ field_control e listed), set], .inl ⟨e, listed, field⟩⟩
    · obtain ⟨pair, found⟩ := Option.isSome_iff_exists.mp set
      have limit := mem_names_of_limit found
      exact ⟨by rw [sets_limit limit, set], .inr limit⟩

theorem doeLimits_without (base : ControlBase α) {names : Finset String}
    (control : "other_element" ∉ names) (name : String) :
    (doeLimits (base.without names)).get? name =
      if name ∈ names then none else (doeLimits base).get? name := by
  rw [get?_doeLimits, get?_doeLimits, without_otherElement base control, filterMap_limitOf_kept]
  split
  · rfl
  · rfl

/-- Without some modes a base sets the others. -/
theorem present_without (base : ControlBase α) (modes : Finset Mode) :
    (base.without (modes.image modeName)).present = base.present.without modes := by
  have control : "other_element" ∉ modes.image modeName := by
    rw [Finset.mem_image]
    rintro ⟨m, -, name⟩
    exact names_agree.2.2.2.2.2.2 m name
  have named (m : Mode) : modeName m ∈ modes.image modeName ↔ m ∈ modes :=
    modeName_injective.mem_finset_image
  unfold DercontrolBase.without
  rw [DercontrolBase.mk.injEq]
  ext m
  rw [mem_present, Finset.mem_sdiff, mem_present, ← named m]
  unfold ControlBase.sets
  rw [doeLimits_without base control]
  by_cases out : modeName m ∈ modes.image modeName
  · have field : (base.without (modes.image modeName)).fields (modeName m) = none := if_pos out
    by_cases ramp : modeName m = "ramp_tms"
    · have unset : (base.without (modes.image modeName)).rampTms = none := if_pos (ramp ▸ out)
      simp [field, out, unset]
    · simp [field, out, ramp]
  · have field : (base.without (modes.image modeName)).fields (modeName m) =
        base.fields (modeName m) := if_neg out
    by_cases ramp : modeName m = "ramp_tms"
    · have kept : (base.without (modes.image modeName)).rampTms = base.rampTms :=
        if_neg (ramp ▸ out)
      simp [field, out, kept]
    · simp [field, out, ramp]

/-- Every name that is reported or called for is the name of a mode. -/
theorem names_named :
    (∀ name ∈ fieldToBit.map Prod.fst, ∃ m, modeName m = name) ∧
      (∀ name ∈ doeLimitNames, ∃ m, modeName m = name) ∧
      ∀ e ∈ controlElements, ∃ m, modeName m = e.field := by
  decide +kernel

/-- The event processor's view of a control, which modes it sets, agrees with the connectors': the
modes it tracks are those that are reported as active, the ones it expects calls for are those that
calls are made for, and a control without some modes is seen as what is left of it. -/
theorem present_agrees (base : ControlBase α) (curves : List (Dercurve α)) (modes : Finset Mode) :
    (∀ name, name ∈ getActiveModeNames base ↔
      ∃ m ∈ Py20305.getActiveModeNames base.present, modeName m = name) ∧
    (∀ name, CallFor base curves name ↔ ∃ m ∈ translatedModes base.present, modeName m = name) ∧
    (base.without (modes.image modeName)).present = base.present.without modes := by
  refine ⟨fun name => ?_, fun name => ?_, present_without base modes⟩
  · constructor
    · intro reported
      obtain ⟨m, rfl⟩ : ∃ m, modeName m = name := by
        rcases (mem_getActiveModeNames_iff base name).mp reported with ⟨tracked, -⟩ | ⟨pair, found⟩
        · exact names_named.1 name tracked
        · exact names_named.2.1 name (mem_names_of_limit found)
      exact ⟨m, (mem_getActiveModeNames_present base m).mpr reported, rfl⟩
    · rintro ⟨m, tracked, rfl⟩
      exact (mem_getActiveModeNames_present base m).mp tracked
  · constructor
    · intro called
      obtain ⟨m, rfl⟩ : ∃ m, modeName m = name := by
        rcases (callFor_iff base curves name).mp called with ⟨e, listed, rfl, -⟩ | ⟨pair, found⟩
        · exact names_named.2.2 e listed
        · exact names_named.2.1 name (mem_names_of_limit found)
      exact ⟨m, (mem_translatedModes_present base curves m).mpr called, rfl⟩
    · rintro ⟨m, translated, rfl⟩
      exact (mem_translatedModes_present base curves m).mp translated

end Present

end Py20305.Modes
