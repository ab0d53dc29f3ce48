import Mathlib.Data.Finset.Basic
import Py20305.Lib.Dict
import Py20305.Sep.Resources

/-!
The control elements (`connectors/modes.py`, `events/modes_bitmask.py` and
`models/csipaus/elements.py`).

A DERControlBase has fields, and limits among its extension elements. `translate_controls` makes
a call for each element of its own table that is set; `get_active_mode_names` goes by the table
of bits, which ten of the fields are not in. The modes of both are the same if and only if none
of these is set, and taking modes out of a default takes out their calls and no others
(`modes_agree_iff`).

Left out: how a parsed element becomes plain data (`element_value`), which is a type `α` here.
-/

namespace Py20305.Modes

/-! ### Tables -/

inductive Kind where
  | curve | value | doeLimit
  deriving DecidableEq, Repr

structure ControlElement where
  element : String
  /-- The attribute on the parsed model, empty for a CSIP-AUS limit. -/
  field : String
  kind : Kind
  deriving DecidableEq, Repr

/-- `CONTROL_ELEMENTS`. -/
def controlElements : List ControlElement :=
  [⟨"opModConnect", "op_mod_connect", .value⟩, ⟨"opModEnergize", "op_mod_energize", .value⟩,
    ⟨"opModDeltaVar", "op_mod_delta_var", .value⟩, ⟨"opModDeltaW", "op_mod_delta_w", .value⟩,
    ⟨"opModFixedPFAbsorbW", "op_mod_fixed_pfabsorb_w", .value⟩,
    ⟨"opModFixedPFInjectW", "op_mod_fixed_pfinject_w", .value⟩,
    ⟨"opModFixedV", "op_mod_fixed_v", .value⟩, ⟨"opModFixedVar", "op_mod_fixed_var", .value⟩,
    ⟨"opModFixedW", "op_mod_fixed_w", .value⟩, ⟨"opModFreqDroop", "op_mod_freq_droop", .value⟩,
    ⟨"opModFreqWatt", "op_mod_freq_watt", .curve⟩,
    ⟨"opModGridConnectPermit", "op_mod_grid_connect_permit", .value⟩,
    ⟨"opModHFRTMayTrip", "op_mod_hfrtmay_trip", .curve⟩,
    ⟨"opModHFRTMustTrip", "op_mod_hfrtmust_trip", .curve⟩,
    ⟨"opModHVRTMayTrip", "op_mod_hvrtmay_trip", .curve⟩,
    ⟨"opModHVRTMomentaryCessation", "op_mod_hvrtmomentary_cessation", .curve⟩,
    ⟨"opModHVRTMustTrip", "op_mod_hvrtmust_trip", .curve⟩,
    ⟨"opModIslandPermit", "op_mod_island_permit", .value⟩,
    ⟨"opModLFRTMayTrip", "op_mod_lfrtmay_trip", .curve⟩,
    ⟨"opModLFRTMustTrip", "op_mod_lfrtmust_trip", .curve⟩,
    ⟨"opModLVRTMayTrip", "op_mod_lvrtmay_trip", .curve⟩,
    ⟨"opModLVRTMomentaryCessation", "op_mod_lvrtmomentary_cessation", .curve⟩,
    ⟨"opModLVRTMustTrip", "op_mod_lvrtmust_trip", .curve⟩,
    ⟨"opModMaxLimPctVAAbsorb", "op_mod_max_lim_pct_vaabsorb", .value⟩,
    ⟨"opModMaxLimPctVAInject", "op_mod_max_lim_pct_vainject", .value⟩,
    ⟨"opModMaxLimPctVarAbsorb", "op_mod_max_lim_pct_var_absorb", .value⟩,
    ⟨"opModMaxLimPctVarInject", "op_mod_max_lim_pct_var_inject", .value⟩,
    ⟨"opModMaxLimPctWAbsorb", "op_mod_max_lim_pct_wabsorb", .value⟩,
    ⟨"opModMaxLimVarAbsorb", "op_mod_max_lim_var_absorb", .value⟩,
    ⟨"opModMaxLimVarInject", "op_mod_max_lim_var_inject", .value⟩,
    ⟨"opModMaxLimW", "op_mod_max_lim_w", .value⟩,
    ⟨"opModMaxLimWAbsorb", "op_mod_max_lim_wabsorb", .value⟩,
    ⟨"opModMaxLimWInject", "op_mod_max_lim_winject", .value⟩,
    ⟨"opModTargetV", "op_mod_target_v", .value⟩, ⟨"opModTargetVar", "op_mod_target_var", .value⟩,
    ⟨"opModTargetW", "op_mod_target_w", .value⟩, ⟨"opModVoltVar", "op_mod_volt_var", .curve⟩,
    ⟨"opModVoltWatt", "op_mod_volt_watt", .curve⟩, ⟨"opModWattPF", "op_mod_watt_pf", .curve⟩,
    ⟨"opModWattVar", "op_mod_watt_var", .curve⟩]

/-- `DOE_ELEMENTS`. -/
def doeElements : List ControlElement :=
  [⟨"opModExpLimW", "", .doeLimit⟩, ⟨"opModImpLimW", "", .doeLimit⟩,
    ⟨"opModGenLimW", "", .doeLimit⟩, ⟨"opModLoadLimW", "", .doeLimit⟩]

def elements : List ControlElement := controlElements ++ doeElements

/-- `_FIELD_TO_BIT`. -/
def fieldToBit : List (String × Nat) :=
  [("op_mod_connect", 2), ("op_mod_energize", 3), ("op_mod_fixed_pfabsorb_w", 4),
    ("op_mod_fixed_pfinject_w", 5), ("op_mod_fixed_var", 6), ("op_mod_fixed_w", 7),
    ("op_mod_freq_droop", 8), ("op_mod_freq_watt", 9), ("op_mod_hfrtmay_trip", 10),
    ("op_mod_hfrtmust_trip", 11), ("op_mod_hvrtmay_trip", 12),
    ("op_mod_hvrtmomentary_cessation", 13), ("op_mod_hvrtmust_trip", 14),
    ("op_mod_lfrtmay_trip", 15), ("op_mod_lfrtmust_trip", 16), ("op_mod_lvrtmay_trip", 17),
    ("op_mod_lvrtmomentary_cessation", 18), ("op_mod_lvrtmust_trip", 19),
    ("op_mod_max_lim_w", 20), ("op_mod_target_var", 21), ("op_mod_target_w", 22),
    ("op_mod_volt_var", 23), ("op_mod_volt_watt", 24), ("op_mod_watt_pf", 25),
    ("op_mod_watt_var", 26), ("op_mod_delta_var", 27), ("op_mod_delta_w", 28),
    ("op_mod_fixed_v", 29), ("op_mod_grid_connect_permit", 30), ("op_mod_island_permit", 31)]

/-- `_FIELD_TO_BIT2`. -/
def fieldToBit2 : List (String × Nat) :=
  [("op_mod_max_lim_pct_vaabsorb", 0), ("op_mod_max_lim_pct_vainject", 1),
    ("op_mod_max_lim_pct_var_absorb", 2), ("op_mod_max_lim_pct_var_inject", 3),
    ("op_mod_max_lim_pct_wabsorb", 4), ("op_mod_max_lim_var_absorb", 5),
    ("op_mod_max_lim_var_inject", 6), ("op_mod_max_lim_wabsorb", 7),
    ("op_mod_max_lim_winject", 8), ("op_mod_target_v", 9)]

/-- `DOE_LIMIT_NAMES`. -/
def doeLimitNames : List String :=
  ["opModExpLimW", "opModImpLimW", "opModGenLimW", "opModLoadLimW"]

/-- The fields of `DercontrolBase` that hold controls. -/
def controlFields : List String :=
  ["op_mod_connect", "op_mod_delta_var", "op_mod_delta_w", "op_mod_energize",
    "op_mod_fixed_pfabsorb_w", "op_mod_fixed_pfinject_w", "op_mod_fixed_v", "op_mod_fixed_var",
    "op_mod_fixed_w", "op_mod_freq_droop", "op_mod_freq_watt", "op_mod_grid_connect_permit",
    "op_mod_hfrtmay_trip", "op_mod_hfrtmust_trip", "op_mod_hvrtmay_trip",
    "op_mod_hvrtmomentary_cessation", "op_mod_hvrtmust_trip", "op_mod_island_permit",
    "op_mod_lfrtmay_trip", "op_mod_lfrtmust_trip", "op_mod_lvrtmay_trip",
    "op_mod_lvrtmomentary_cessation", "op_mod_lvrtmust_trip", "op_mod_max_lim_pct_vaabsorb",
    "op_mod_max_lim_pct_vainject", "op_mod_max_lim_pct_var_absorb",
    "op_mod_max_lim_pct_var_inject", "op_mod_max_lim_pct_wabsorb", "op_mod_max_lim_var_absorb",
    "op_mod_max_lim_var_inject", "op_mod_max_lim_w", "op_mod_max_lim_wabsorb",
    "op_mod_max_lim_winject", "op_mod_target_v", "op_mod_target_var", "op_mod_target_w",
    "op_mod_volt_var", "op_mod_volt_watt", "op_mod_watt_pf", "op_mod_watt_var"]

/-- `DercontrolBase.model_fields`. -/
def modelFields : List String :=
  controlFields ++ ["ramp_tms", "dercontrol_base_r2_3", "other_element", "any_attributes"]

/-- `snake_case`: a word begins where a capital follows a small letter or a digit, or follows a
capital and is followed by a small letter. -/
def snakeChars : Option Char → List Char → List Char
  | _, [] => []
  | previous, c :: rest =>
      let begins := c.isUpper && (previous.any fun p =>
        p.isLower || p.isDigit || (p.isUpper && rest.head?.any Char.isLower))
      (if begins then ['_', c.toLower] else [c.toLower]) ++ snakeChars (some c) rest

def snakeCase (element : String) : String := String.ofList (snakeChars none element.toList)

/-- The connector method of an element. -/
def ControlElement.method (e : ControlElement) : String := "update_" ++ snakeCase e.element

/-- The name the event processor tracks an element by. -/
def ControlElement.mode (e : ControlElement) : String :=
  if e.kind = .doeLimit then e.element else e.field

/-- `ELEMENT_BY_MODE`. -/
def elementByMode (mode : String) : Option ControlElement := elements.find? (·.mode = mode)

/-! ### Limits -/

/-- An attribute of an extension element, or a text in it. -/
inductive Raw where
  | absent
  | bool
  | int (n : ℤ)
  /-- A text, with what `int` reads in it. -/
  | text (read : Option ℤ)
  | other
  deriving DecidableEq, Repr

/-- `_int_or_none`. -/
def Raw.intOrNone : Raw → Option ℤ
  | int n => some n
  | text read => read
  | _ => none

/-- `_local_name`. -/
def localName (qname : String) : String :=
  String.ofList (qname.toList.reverse.takeWhile (· ≠ '}')).reverse

structure ChildElement where
  qname : Option String
  text : Raw
  deriving DecidableEq, Repr

/-- An extension element: a typed model or a generic one. -/
structure Extension where
  /-- `Meta.name` of a typed model. -/
  metaName : Option String := none
  qname : Option String := none
  value : Raw := .absent
  /-- The attribute, if there is one, out of its own type. -/
  multiplier : Option Raw := none
  children : List ChildElement := []
  deriving DecidableEq, Repr

/-- `doe_element_name`. -/
def Extension.name (x : Extension) : Option String :=
  match x.metaName with
  | some name => some name
  | none => x.qname.map localName

/-- The last number in the children of this name. -/
def lastNumber (children : List ChildElement) (name : String) : Option ℤ :=
  (children.filterMap fun child =>
    if child.qname.map localName = some name then child.text.intOrNone else none).getLast?

/-- `doe_value_multiplier`. -/
def Extension.valueMultiplier (x : Extension) : Option (ℤ × ℤ) :=
  if x.value = .absent ∨ x.value = .bool then
    (lastNumber x.children "value").map fun value =>
      (value, (lastNumber x.children "multiplier").getD 0)
  else
    x.value.intOrNone.map fun value =>
      (value, ((x.multiplier.getD (.int 0)).intOrNone).getD 0)

/-- One round of the loop of `doe_limits`. -/
def addLimit (out : Dict String (ℤ × ℤ)) (x : Extension) : Dict String (ℤ × ℤ) :=
  match x.name with
  | none => out
  | some name =>
      if name ∈ doeLimitNames then
        match x.valueMultiplier with
        | none => out
        | some pair => out.set name pair
      else out

/-! ### Controls -/

section Controls

variable {α : Type}

/-- What a field of a DERControlBase holds. -/
structure FieldValue (α : Type) where
  disabled : Bool
  /-- Where it is a link to a curve. -/
  href : Option Href
  value : α

structure Dercurve (α : Type) where
  href : Option Href
  value : α

structure ControlBase (α : Type) where
  fields : String → Option (FieldValue α)
  rampTms : Option ℕ
  otherElement : List Extension
  known : ∀ name, (fields name).isSome = true → name ∈ controlFields

structure DefaultControl (α : Type) where
  mrid : Mrid
  base : ControlBase α

/-- `doe_limits`. -/
def doeLimits (base : ControlBase α) : Dict String (ℤ × ℤ) :=
  base.otherElement.foldl addLimit .empty

/-- `get_active_mode_names`. -/
def getActiveModeNames (base : ControlBase α) : List String :=
  (fieldToBit.map Prod.fst).filter (fun name => (base.fields name).isSome) ++
    (doeLimits base).keys

inductive Value (α : Type) where
  | limit (value multiplier : ℤ)
  | data (value : α)

/-- The parameters of a call. -/
structure Params (α : Type) where
  value : Option (Value α) := none
  rampTms : Option ℕ := none

/-- `DISABLED`. -/
def disabled : Params α := {}

/-- `params.get("enabled")`. -/
def Params.enabled (p : Params α) : Bool := p.value.isSome

/-- `_find_curve`. -/
def findCurve (href : Option Href) (curves : List (Dercurve α)) : Option (Dercurve α) :=
  curves.find? (·.href = href)

/-- `_element_params`. -/
def elementParams (e : ControlElement) (base : ControlBase α) (curves : List (Dercurve α)) :
    Option (Params α) :=
  if e.kind = .doeLimit then
    ((doeLimits base).get? e.element).map fun pair => { value := some (.limit pair.1 pair.2) }
  else
    (base.fields e.field).map fun field =>
      if field.disabled then disabled
      else if e.kind = .curve then
        match findCurve field.href curves with
        | none => disabled
        | some curve => { value := some (.data curve.value) }
      else { value := some (.data field.value) }

/-- `translate_controls`. -/
def translateControls (base : ControlBase α) (curves : List (Dercurve α)) :
    List (String × Params α) :=
  elements.filterMap fun e => (elementParams e base curves).map fun params =>
    (e.method, if params.enabled then { params with rampTms := base.rampTms } else params)

/-- `_default_without`, on the base. -/
def ControlBase.without (base : ControlBase α) (modes : Finset String) : ControlBase α :=
  let kept := base.otherElement.filter fun x => x.name.all (· ∉ modes)
  { fields := fun name => if name ∈ modes then none else base.fields name
    rampTms := if "ramp_tms" ∈ modes then none else base.rampTms
    otherElement :=
      if kept.length ≠ base.otherElement.length then kept
      else if "other_element" ∈ modes then []
      else base.otherElement
    known := fun name found => by
      split at found
      · cases found
      · exact base.known name found }

/-- `_default_without`. -/
def defaultWithout (dderc : DefaultControl α) (modes : Finset String) : DefaultControl α :=
  { dderc with base := dderc.base.without modes }

/-! ### The limits of a base -/

/-- What an extension element says of the limit `name`. -/
def limitOf (name : String) (x : Extension) : Option (ℤ × ℤ) :=
  if x.name = some name ∧ name ∈ doeLimitNames then x.valueMultiplier else none

theorem get?_addLimit (out : Dict String (ℤ × ℤ)) (x : Extension) (name : String) :
    (addLimit out x).get? name = (limitOf name x).or (out.get? name) := by
  unfold addLimit limitOf
  cases named : x.name with
  | none => simp
  | some own =>
      by_cases limit : own ∈ doeLimitNames
      · cases read : x.valueMultiplier with
        | none => simp [limit]
        | some pair =>
            by_cases same : name = own
            · simp [same, limit]
            · have other : own ≠ name := fun h => same h.symm
              simp [limit, same, other, Dict.get?_set]
      · by_cases same : own = name
        · simp [← same, limit]
        · simp [limit, same]

theorem get?_foldl_addLimit (xs : List Extension) (out : Dict String (ℤ × ℤ)) (name : String) :
    (xs.foldl addLimit out).get? name =
      (xs.filterMap (limitOf name)).getLast?.or (out.get? name) := by
  induction xs generalizing out with
  | nil => simp
  | cons x rest ih =>
      rw [List.foldl_cons, ih, get?_addLimit]
      cases own : limitOf name x with
      | none => simp [own]
      | some pair =>
          cases later : (rest.filterMap (limitOf name)).getLast? <;>
            simp [own, later, List.getLast?_cons]

/-- The last element that says something of a limit decides it. -/
theorem get?_doeLimits (base : ControlBase α) (name : String) :
    (doeLimits base).get? name = (base.otherElement.filterMap (limitOf name)).getLast? := by
  rw [doeLimits, get?_foldl_addLimit, Dict.get?_empty, Option.or_none]

theorem mem_names_of_limit {base : ControlBase α} {name : String} {pair : ℤ × ℤ}
    (found : (doeLimits base).get? name = some pair) : name ∈ doeLimitNames := by
  rw [get?_doeLimits] at found
  obtain ⟨x, -, said⟩ := List.mem_filterMap.mp (List.mem_of_getLast? found)
  unfold limitOf at said
  split at said
  · rename_i named
    exact named.2
  · cases said

/-! ### Tables agree -/

/-- The comparisons of the tables, evaluated once. -/
theorem tables_agree :
    (elements.map ControlElement.mode).Nodup ∧
      (∀ e ∈ controlElements, e.kind ≠ .doeLimit ∧
        (e.field ∈ fieldToBit.map Prod.fst ∨ e.field ∈ fieldToBit2.map Prod.fst)) ∧
      (∀ name ∈ fieldToBit.map Prod.fst, ∃ e ∈ controlElements, e.field = name) ∧
      (∀ name ∈ fieldToBit2.map Prod.fst, name ∉ fieldToBit.map Prod.fst ∧
        name ∉ doeLimitNames ∧ ∃ e ∈ controlElements, e.field = name) ∧
      elementByMode "ramp_tms" = none ∧ elementByMode "other_element" = none := by
  decide +kernel

theorem mode_nodup : (elements.map ControlElement.mode).Nodup := tables_agree.1

theorem methods_eq : elements.map ControlElement.method =
    ["update_op_mod_connect", "update_op_mod_energize", "update_op_mod_delta_var",
      "update_op_mod_delta_w", "update_op_mod_fixed_pf_absorb_w",
      "update_op_mod_fixed_pf_inject_w", "update_op_mod_fixed_v", "update_op_mod_fixed_var",
      "update_op_mod_fixed_w", "update_op_mod_freq_droop", "update_op_mod_freq_watt",
      "update_op_mod_grid_connect_permit", "update_op_mod_hfrt_may_trip",
      "update_op_mod_hfrt_must_trip", "update_op_mod_hvrt_may_trip",
      "update_op_mod_hvrt_momentary_cessation", "update_op_mod_hvrt_must_trip",
      "update_op_mod_island_permit", "update_op_mod_lfrt_may_trip",
      "update_op_mod_lfrt_must_trip", "update_op_mod_lvrt_may_trip",
      "update_op_mod_lvrt_momentary_cessation", "update_op_mod_lvrt_must_trip",
      "update_op_mod_max_lim_pct_va_absorb", "update_op_mod_max_lim_pct_va_inject",
      "update_op_mod_max_lim_pct_var_absorb", "update_op_mod_max_lim_pct_var_inject",
      "update_op_mod_max_lim_pct_w_absorb", "update_op_mod_max_lim_var_absorb",
      "update_op_mod_max_lim_var_inject", "update_op_mod_max_lim_w",
      "update_op_mod_max_lim_w_absorb", "update_op_mod_max_lim_w_inject",
      "update_op_mod_target_v", "update_op_mod_target_var", "update_op_mod_target_w",
      "update_op_mod_volt_var", "update_op_mod_volt_watt", "update_op_mod_watt_pf",
      "update_op_mod_watt_var", "update_op_mod_exp_lim_w", "update_op_mod_imp_lim_w",
      "update_op_mod_gen_lim_w", "update_op_mod_load_lim_w"] := by
  rfl

theorem method_nodup : (elements.map ControlElement.method).Nodup := by
  rw [methods_eq]
  decide +kernel

theorem field_listed : ∀ e ∈ controlElements,
    e.kind ≠ .doeLimit ∧
      (e.field ∈ fieldToBit.map Prod.fst ∨ e.field ∈ fieldToBit2.map Prod.fst) :=
  tables_agree.2.1

theorem bit_has_element : ∀ name ∈ fieldToBit.map Prod.fst,
    ∃ e ∈ controlElements, e.field = name :=
  tables_agree.2.2.1

/-- The fields of the second table are controls that the first leaves out. -/
theorem bit2_has_element : ∀ name ∈ fieldToBit2.map Prod.fst,
    name ∉ fieldToBit.map Prod.fst ∧ name ∉ doeLimitNames ∧
      ∃ e ∈ controlElements, e.field = name :=
  tables_agree.2.2.2.1

theorem limit_names : doeElements.map ControlElement.element = doeLimitNames := rfl

theorem limit_kind : ∀ e ∈ doeElements, e.kind = .doeLimit := by decide

/-- What is set beside the modes is no mode. -/
theorem not_modes : elementByMode "ramp_tms" = none ∧ elementByMode "other_element" = none :=
  tables_agree.2.2.2.2

theorem elementByMode_eq_some_iff {mode : String} {e : ControlElement} :
    elementByMode mode = some e ↔ e ∈ elements ∧ e.mode = mode := by
  constructor
  · intro found
    exact ⟨List.mem_of_find?_eq_some found, by simpa using List.find?_some found⟩
  · rintro ⟨listed, rfl⟩
    cases found : elementByMode e.mode with
    | none =>
        have missed := List.find?_eq_none.mp found e listed
        simp at missed
    | some e' =>
        have listed' := List.mem_of_find?_eq_some found
        have same : e'.mode = e.mode := by simpa using List.find?_some found
        rw [List.inj_on_of_nodup_map mode_nodup listed' listed same]

/-! ### Calls -/

/-- An element is set where its mode is: by its field, or by its limit. -/
theorem elementParams_isSome (e : ControlElement) (base : ControlBase α)
    (curves : List (Dercurve α)) :
    (elementParams e base curves).isSome =
      if e.kind = .doeLimit then ((doeLimits base).get? e.element).isSome
      else (base.fields e.field).isSome := by
  unfold elementParams
  split
  · exact Option.isSome_map
  · exact Option.isSome_map

theorem method_mem_iff {e : ControlElement} (listed : e ∈ elements) (base : ControlBase α)
    (curves : List (Dercurve α)) :
    e.method ∈ (translateControls base curves).map Prod.fst ↔
      (elementParams e base curves).isSome = true := by
  simp only [translateControls, List.mem_map, List.mem_filterMap, Option.map_eq_some_iff]
  constructor
  · rintro ⟨call, ⟨e', listed', params, set, rfl⟩, same⟩
    rw [← List.inj_on_of_nodup_map method_nodup listed' listed same, set]
    rfl
  · intro set
    obtain ⟨params, found⟩ := Option.isSome_iff_exists.mp set
    exact ⟨_, ⟨e, listed, params, found, rfl⟩, rfl⟩

/-- The modes of the calls. -/
def CallFor (base : ControlBase α) (curves : List (Dercurve α)) (mode : String) : Prop :=
  ∃ e, elementByMode mode = some e ∧ e.method ∈ (translateControls base curves).map Prod.fst

theorem callFor_iff (base : ControlBase α) (curves : List (Dercurve α)) (mode : String) :
    CallFor base curves mode ↔
      (∃ e ∈ controlElements, e.field = mode ∧ (base.fields mode).isSome = true) ∨
        ∃ pair, (doeLimits base).get? mode = some pair := by
  unfold CallFor
  constructor
  · rintro ⟨e, found, called⟩
    obtain ⟨listed, rfl⟩ := elementByMode_eq_some_iff.mp found
    rw [method_mem_iff listed, elementParams_isSome] at called
    rcases List.mem_append.mp listed with control | limit
    · have kind := (field_listed e control).1
      rw [if_neg kind] at called
      rw [ControlElement.mode, if_neg kind]
      exact .inl ⟨e, control, rfl, called⟩
    · have kind := limit_kind e limit
      rw [if_pos kind] at called
      rw [ControlElement.mode, if_pos kind]
      exact .inr (Option.isSome_iff_exists.mp called)
  · rintro (⟨e, control, rfl, set⟩ | ⟨pair, found⟩)
    · have kind := (field_listed e control).1
      have listed : e ∈ elements := List.mem_append_left _ control
      refine ⟨e, elementByMode_eq_some_iff.mpr ⟨listed, by rw [ControlElement.mode, if_neg kind]⟩, ?_⟩
      rw [method_mem_iff listed, elementParams_isSome, if_neg kind]
      exact set
    · have named := mem_names_of_limit found
      rw [← limit_names] at named
      obtain ⟨e, limit, rfl⟩ := List.mem_map.mp named
      have kind := limit_kind e limit
      have listed : e ∈ elements := List.mem_append_right _ limit
      refine ⟨e, elementByMode_eq_some_iff.mpr ⟨listed, by rw [ControlElement.mode, if_pos kind]⟩, ?_⟩
      rw [method_mem_iff listed, elementParams_isSome, if_pos kind, found]
      rfl

theorem mem_getActiveModeNames_iff (base : ControlBase α) (mode : String) :
    mode ∈ getActiveModeNames base ↔
      (mode ∈ fieldToBit.map Prod.fst ∧ (base.fields mode).isSome = true) ∨
        ∃ pair, (doeLimits base).get? mode = some pair := by
  rw [getActiveModeNames, List.mem_append, List.mem_filter, Dict.mem_keys_iff]

/-- The modes agree unless a field of the second table is set. -/
theorem reported_iff (base : ControlBase α) (curves : List (Dercurve α)) :
    (∀ mode, mode ∈ getActiveModeNames base ↔ CallFor base curves mode) ↔
      ∀ name ∈ fieldToBit2.map Prod.fst, base.fields name = none := by
  constructor
  · intro agree name second
    obtain ⟨notFirst, notLimit, e, control, field⟩ := bit2_has_element name second
    by_contra set
    have called : CallFor base curves name :=
      (callFor_iff base curves name).mpr (.inl ⟨e, control, field, Option.isSome_iff_ne_none.mpr set⟩)
    rcases (mem_getActiveModeNames_iff base name).mp ((agree name).mpr called) with
      ⟨first, -⟩ | ⟨pair, found⟩
    · exact notFirst first
    · exact notLimit (mem_names_of_limit found)
  · intro unset mode
    rw [mem_getActiveModeNames_iff, callFor_iff]
    refine or_congr ⟨?_, ?_⟩ Iff.rfl
    · rintro ⟨first, set⟩
      obtain ⟨e, control, field⟩ := bit_has_element mode first
      exact ⟨e, control, field, set⟩
    · rintro ⟨e, control, rfl, set⟩
      rcases (field_listed e control).2 with first | second
      · exact ⟨first, set⟩
      · rw [unset _ second] at set
        cases set

/-! ### Modes taken out -/

theorem filterMap_limitOf_kept (xs : List Extension) (modes : Finset String) (name : String) :
    (xs.filter fun x => x.name.all (· ∉ modes)).filterMap (limitOf name) =
      if name ∈ modes then [] else xs.filterMap (limitOf name) := by
  rw [List.filterMap_filter]
  split
  · rename_i out
    rw [List.filterMap_eq_nil_iff]
    intro x _
    unfold limitOf
    by_cases named : x.name = some name
    · simp [named, out]
    · simp [named]
  · rename_i stays
    apply List.filterMap_congr
    intro x _
    unfold limitOf
    by_cases named : x.name = some name
    · simp [named, stays]
    · simp [named]

/-- Where nothing is filtered out the elements stay as they are. -/
theorem without_otherElement (base : ControlBase α) {modes : Finset String}
    (control : "other_element" ∉ modes) :
    (base.without modes).otherElement =
      base.otherElement.filter fun x => x.name.all (· ∉ modes) := by
  unfold ControlBase.without
  dsimp only
  rw [if_neg control]
  split
  · rfl
  · rename_i sameLength
    push Not at sameLength
    exact (List.filter_sublist.eq_of_length sameLength).symm

theorem elementParams_without {e : ControlElement} (base : ControlBase α)
    (curves : List (Dercurve α)) {modes : Finset String} (control : "other_element" ∉ modes) :
    elementParams e (base.without modes) curves =
      if e.mode ∈ modes then none else elementParams e base curves := by
  unfold elementParams ControlElement.mode
  by_cases kind : e.kind = .doeLimit
  · rw [if_pos kind, if_pos kind, if_pos kind, get?_doeLimits, get?_doeLimits,
      without_otherElement base control, filterMap_limitOf_kept]
    split
    · rfl
    · rfl
  · rw [if_neg kind, if_neg kind, if_neg kind]
    have field : (base.without modes).fields e.field =
        if e.field ∈ modes then none else base.fields e.field := rfl
    rw [field]
    by_cases out : e.field ∈ modes
    · rw [if_pos out, if_pos out, Option.map_none]
    · rw [if_neg out, if_neg out]

theorem translateControls_without (dderc : DefaultControl α) (curves : List (Dercurve α))
    (modes : Finset String) (known : ∀ m ∈ modes, (elementByMode m).isSome = true) :
    translateControls (defaultWithout dderc modes).base curves =
      (translateControls dderc.base curves).filter fun call =>
        ∀ m ∈ modes, (elementByMode m).map ControlElement.method ≠ some call.1 := by
  have control : "other_element" ∉ modes := fun listed => by
    have found := known _ listed
    rw [not_modes.2] at found
    cases found
  have ramp : (dderc.base.without modes).rampTms = dderc.base.rampTms := by
    refine if_neg fun listed => ?_
    have found := known _ listed
    rw [not_modes.1] at found
    cases found
  unfold translateControls defaultWithout
  rw [List.filter_filterMap]
  apply List.filterMap_congr
  intro e listed
  dsimp only
  rw [elementParams_without dderc.base curves control, ramp]
  -- the call of `e` goes exactly where its own mode is taken out
  have own : (∀ m ∈ modes, (elementByMode m).map ControlElement.method ≠ some e.method) ↔
      e.mode ∉ modes := by
    constructor
    · intro none out
      exact none e.mode out (by rw [elementByMode_eq_some_iff.mpr ⟨listed, rfl⟩]; rfl)
    · intro stays m out same
      obtain ⟨e', found, method⟩ := Option.map_eq_some_iff.mp same
      obtain ⟨listed', rfl⟩ := elementByMode_eq_some_iff.mp found
      rw [List.inj_on_of_nodup_map method_nodup listed' listed method] at out
      exact stays out
  cases set : elementParams e dderc.base curves with
  | none => simp
  | some params =>
      by_cases out : e.mode ∈ modes
      · have dropped := mt own.mp (not_not_intro out)
        simp only [if_pos out, Option.map_none, Option.map_some, Option.filter_some,
          decide_eq_true_eq, if_neg dropped]
      · simp only [if_neg out, Option.map_some, Option.filter_some, decide_eq_true_eq,
          if_pos (own.mpr out)]

/-- The reported modes are those of the calls if and only if no field of the second table is set;
taking modes out of a default takes out their calls in any case. -/
theorem modes_agree_iff (base : ControlBase α) (dderc : DefaultControl α)
    (curves : List (Dercurve α)) (modes : Finset String)
    (known : ∀ m ∈ modes, (elementByMode m).isSome = true) :
    ((∀ mode, mode ∈ getActiveModeNames base ↔ CallFor base curves mode) ∧
      translateControls (defaultWithout dderc modes).base curves =
        (translateControls dderc.base curves).filter fun call =>
          ∀ m ∈ modes, (elementByMode m).map ControlElement.method ≠ some call.1) ↔
      ∀ name ∈ fieldToBit2.map Prod.fst, base.fields name = none := by
  rw [reported_iff]
  exact and_iff_left (translateControls_without dderc curves modes known)

end Controls

/-- A base of one field. -/
def oneField (field : String) (listed : field ∈ controlFields) (value : ℕ) : ControlBase ℕ where
  fields name := if name = field then some ⟨false, none, value⟩ else none
  rampTms := none
  otherElement := []
  known name found := by
    split at found
    · rename_i same
      exact same ▸ listed
    · cases found

/-- A limit on injection makes a call, and no mode is reported for it. -/
theorem injectionLimit_unreported :
    (translateControls (oneField "op_mod_max_lim_winject" (by decide) 4000) []).map Prod.fst =
        ["update_op_mod_max_lim_w_inject"] ∧
      getActiveModeNames (oneField "op_mod_max_lim_winject" (by decide) 4000) = [] ∧
      ¬ ∀ mode, mode ∈ getActiveModeNames (oneField "op_mod_max_lim_winject" (by decide) 4000) ↔
        CallFor (oneField "op_mod_max_lim_winject" (by decide) 4000) [] mode := by
  refine ⟨by decide +kernel, by decide +kernel, fun agree => ?_⟩
  have unset := (reported_iff _ []).mp agree "op_mod_max_lim_winject" (by decide)
  cases unset

/-- A default of a fixed power, without it and without an export limit. -/
theorem fixedPower_agrees :
    (∀ mode, mode ∈ getActiveModeNames (oneField "op_mod_fixed_w" (by decide) 50) ↔
        CallFor (oneField "op_mod_fixed_w" (by decide) 50) [] mode) ∧
      translateControls (defaultWithout ⟨1, oneField "op_mod_fixed_w" (by decide) 50⟩
          {"op_mod_fixed_w", "opModExpLimW"}).base [] =
        (translateControls (oneField "op_mod_fixed_w" (by decide) 50) []).filter fun call =>
          ∀ m ∈ ({"op_mod_fixed_w", "opModExpLimW"} : Finset String),
            (elementByMode m).map ControlElement.method ≠ some call.1 :=
  (modes_agree_iff (oneField "op_mod_fixed_w" (by decide) 50)
    ⟨1, oneField "op_mod_fixed_w" (by decide) 50⟩ [] {"op_mod_fixed_w", "opModExpLimW"}
    (by decide +kernel)).mpr (by decide)

end Py20305.Modes
