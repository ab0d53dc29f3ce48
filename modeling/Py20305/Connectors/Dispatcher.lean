import Mathlib.Data.Finset.Sort
import Mathlib.Data.String.Basic
import Py20305.Lib.Raising

/-!
`ConnectorDispatcher`: the clear and the withdrawal of modes
(`connectors/dispatcher.py`, `connectors/modes.py`).

A connector is its `update_` methods, each given the parameters that withdraw its
element. They are called one after the other, and the first that raises ends the rest
(`reaches_fanOut_iff`).

Left out: the value kinds of the elements, and what is recorded of a write beside its
outcome.
-/

namespace Py20305.Connectors

open Raising

/-! ### Elements -/

/-- A capital that starts a word: after a small letter or a digit, or as the last of a run of
capitals before a small letter. -/
def startsWord (before : Option Char) (c : Char) (after : Option Char) : Bool :=
  before.any fun p =>
    (p.isUpper && c.isUpper && after.any Char.isLower) || ((p.isLower || p.isDigit) && c.isUpper)

def snakeChars : Option Char → List Char → List Char
  | _, [] => []
  | before, c :: rest =>
      (if startsWord before c rest.head? then ['_', c.toLower] else [c.toLower]) ++
        snakeChars (some c) rest

/-- `snake_case`. -/
def snakeCase (element : String) : String := String.ofList (snakeChars none element.toList)

/-- `ControlElement`. -/
structure ControlElement where
  element : String
  /-- The attribute on the parsed model, or "" for a CSIP-AUS limit. -/
  field : String
  deriving DecidableEq, Repr

def ControlElement.method (e : ControlElement) : String := "update_" ++ snakeCase e.element

/-- `CONTROL_ELEMENTS`. -/
def controlElements : List ControlElement :=
  [⟨"opModConnect", "op_mod_connect"⟩, ⟨"opModEnergize", "op_mod_energize"⟩,
    ⟨"opModDeltaVar", "op_mod_delta_var"⟩, ⟨"opModDeltaW", "op_mod_delta_w"⟩,
    ⟨"opModFixedPFAbsorbW", "op_mod_fixed_pfabsorb_w"⟩,
    ⟨"opModFixedPFInjectW", "op_mod_fixed_pfinject_w"⟩, ⟨"opModFixedV", "op_mod_fixed_v"⟩,
    ⟨"opModFixedVar", "op_mod_fixed_var"⟩, ⟨"opModFixedW", "op_mod_fixed_w"⟩,
    ⟨"opModFreqDroop", "op_mod_freq_droop"⟩, ⟨"opModFreqWatt", "op_mod_freq_watt"⟩,
    ⟨"opModGridConnectPermit", "op_mod_grid_connect_permit"⟩,
    ⟨"opModHFRTMayTrip", "op_mod_hfrtmay_trip"⟩, ⟨"opModHFRTMustTrip", "op_mod_hfrtmust_trip"⟩,
    ⟨"opModHVRTMayTrip", "op_mod_hvrtmay_trip"⟩,
    ⟨"opModHVRTMomentaryCessation", "op_mod_hvrtmomentary_cessation"⟩,
    ⟨"opModHVRTMustTrip", "op_mod_hvrtmust_trip"⟩, ⟨"opModIslandPermit", "op_mod_island_permit"⟩,
    ⟨"opModLFRTMayTrip", "op_mod_lfrtmay_trip"⟩, ⟨"opModLFRTMustTrip", "op_mod_lfrtmust_trip"⟩,
    ⟨"opModLVRTMayTrip", "op_mod_lvrtmay_trip"⟩,
    ⟨"opModLVRTMomentaryCessation", "op_mod_lvrtmomentary_cessation"⟩,
    ⟨"opModLVRTMustTrip", "op_mod_lvrtmust_trip"⟩,
    ⟨"opModMaxLimPctVAAbsorb", "op_mod_max_lim_pct_vaabsorb"⟩,
    ⟨"opModMaxLimPctVAInject", "op_mod_max_lim_pct_vainject"⟩,
    ⟨"opModMaxLimPctVarAbsorb", "op_mod_max_lim_pct_var_absorb"⟩,
    ⟨"opModMaxLimPctVarInject", "op_mod_max_lim_pct_var_inject"⟩,
    ⟨"opModMaxLimPctWAbsorb", "op_mod_max_lim_pct_wabsorb"⟩,
    ⟨"opModMaxLimVarAbsorb", "op_mod_max_lim_var_absorb"⟩,
    ⟨"opModMaxLimVarInject", "op_mod_max_lim_var_inject"⟩, ⟨"opModMaxLimW", "op_mod_max_lim_w"⟩,
    ⟨"opModMaxLimWAbsorb", "op_mod_max_lim_wabsorb"⟩,
    ⟨"opModMaxLimWInject", "op_mod_max_lim_winject"⟩, ⟨"opModTargetV", "op_mod_target_v"⟩,
    ⟨"opModTargetVar", "op_mod_target_var"⟩, ⟨"opModTargetW", "op_mod_target_w"⟩,
    ⟨"opModVoltVar", "op_mod_volt_var"⟩, ⟨"opModVoltWatt", "op_mod_volt_watt"⟩,
    ⟨"opModWattPF", "op_mod_watt_pf"⟩, ⟨"opModWattVar", "op_mod_watt_var"⟩]

/-- `DOE_ELEMENTS`. -/
def doeElements : List ControlElement :=
  [⟨"opModExpLimW", ""⟩, ⟨"opModImpLimW", ""⟩, ⟨"opModGenLimW", ""⟩, ⟨"opModLoadLimW", ""⟩]

/-- `DISABLE_CALLS`: the methods, each called with the parameters that withdraw. -/
def disableCalls : List String := (controlElements ++ doeElements).map (·.method)

/-- `_KEPT_AT_EVENT_END`. -/
def keptAtEventEnd : List String :=
  ["opModConnect", "opModEnergize", "opModGridConnectPermit", "opModIslandPermit"]

/-- `ELEMENT_BY_MODE`. -/
def elementByMode (mode : String) : Option ControlElement :=
  (controlElements.map (fun e => (e.field, e)) ++ doeElements.map fun e => (e.element, e)).lookup mode

/-- `FIELD_DISABLE_CALLS`. -/
def fieldDisableCall (mode : String) : Option String :=
  ((elementByMode mode).filter fun e => e.element ∉ keptAtEventEnd).map (·.method)

/-! ### Writes -/

/-- A connector, with the calls that withdraw its elements. -/
structure Connector (ε σ : Type) where
  /-- `_control_support` finds a method of its own. -/
  implements : String → Bool
  update : String → Raising ε σ Unit

/-- What is kept of a write. -/
inductive Outcome where
  | refused | failed | applied
  deriving DecidableEq, Repr

/-- A method was called, or a write was recorded. -/
inductive Entry where
  | called (method : String)
  | kept (control : String) (outcome : Outcome)
  deriving DecidableEq, Repr

/-- The connector's state and what was called and recorded, newest first. -/
structure Trail (σ : Type) where
  connector : σ
  log : List Entry

/-- The name a method's write is kept under. -/
def controlOf (method : String) : String := (method.dropPrefix "update_").toString

section Calls

variable {ε σ : Type} (permits : Bool) (c : Connector ε σ)

def keep (entry : Entry) : Raising ε (Trail σ) Unit := change fun t => { t with log := entry :: t.log }

/-- `_apply_one`, with the gate's answer; it returns whether the method was called. -/
def applyOne (method : String) : Raising ε (Trail σ) Bool := do
  let control := controlOf method
  if permits then do
    keep (.called method)
    (within (·.connector) (fun t s => { t with connector := s }) (c.update method)).except fun exc => do
      keep (.kept control .failed)
      raise exc
    keep (.kept control .applied)
    pure true
  else do
    keep (.kept control .refused)
    pure false

/-- Apply each method the connector implements. -/
def fanOut (methods : List String) : Raising ε (Trail σ) Unit :=
  Raising.each methods fun method =>
    if c.implements method then do
      let _ ← applyOne permits c method
    else pure ()

/-- `_clear_control_on_connector`, where the connector has no clear of its own. -/
def clearControl : Raising ε (Trail σ) Unit := fanOut permits c disableCalls

/-- `calls.setdefault`. -/
def setDefault (calls : List String) (method : String) : List String :=
  if method ∈ calls then calls else calls ++ [method]

/-- The calls of `_disable_modes_on_connector`. -/
def withdrawals (modes : Finset String) : List String :=
  ((modes.sort (· ≤ ·)).filterMap fieldDisableCall).foldl setDefault []

/-- `_disable_modes_on_connector`. -/
def disableModes (modes : Finset String) : Raising ε (Trail σ) Unit :=
  fanOut permits c (withdrawals modes)

end Calls

/-! ### What is reached -/

section Reached

variable {ε σ : Type} {permits : Bool} {c : Connector ε σ} {methods : List String}
  {t : Trail σ} {m : String}

/-- Every method of the list that the connector implements has been called, once. -/
def ReachesAll (c : Connector ε σ) (methods : List String) (log : List Entry) : Prop :=
  ∀ m ∈ methods, c.implements m = true → log.count (.called m) = 1

/-- The gate permits the calls, and none of those that are implemented raises before the last. -/
def NoneBeforeLastRaises (permits : Bool) (c : Connector ε σ) (methods : List String) (s : σ) : Prop :=
  methods.filter c.implements = [] ∨ permits = true ∧
    ∃ u, (Raising.each (methods.filter c.implements).dropLast c.update).Returns s () u

/-- A method's turn adds no call of another. -/
theorem ends_applyOne_count {method : String} (other : m ≠ method) (t : Trail σ) :
    (applyOne permits c method).Ends t (fun _ u => u.log.count (.called m) = t.log.count (.called m))
      fun _ u => u.log.count (.called m) = t.log.count (.called m) := by
  have called : Entry.called method ≠ .called m := fun same => other (Entry.called.inj same).symm
  simp only [applyOne, keep, ends_ite_iff, ends_bind_iff, ends_change_iff, ends_except_iff,
    ends_within_iff, ends_raise_iff, ends_pure_iff]
  refine ⟨fun _ => ?_, fun _ => by simp⟩
  exact ends_iff.mpr ⟨fun _ _ _ => by simp [List.count_cons_of_ne called],
    fun _ _ _ => by simp [List.count_cons_of_ne called]⟩

theorem ends_fanOut_count (other : m ∉ methods) (t : Trail σ) :
    (fanOut permits c methods).Ends t (fun _ u => u.log.count (.called m) = t.log.count (.called m))
      fun _ u => u.log.count (.called m) = t.log.count (.called m) := by
  induction methods generalizing t with
  | nil => exact rfl
  | cons method rest ih =>
      rw [List.mem_cons, not_or] at other
      rw [fanOut, ends_each_cons_iff, ends_ite_iff]
      refine ⟨fun _ => ?_, fun _ => ih other.2 t⟩
      rw [ends_bind_iff]
      exact (ends_applyOne_count other.1 t).mono
        (fun _ u same => (ih other.2 u).mono (fun _ _ later => later.trans same)
          fun _ _ later => later.trans same) fun _ _ same => same

/-- What the connector does not implement is passed over. -/
theorem fanOut_filter (permits : Bool) (c : Connector ε σ) (methods : List String) :
    fanOut permits c methods = fanOut permits c (methods.filter c.implements) := by
  induction methods with
  | nil => rfl
  | cons method rest ih =>
      by_cases mine : c.implements method = true
      · rw [List.filter_cons_of_pos mine, fanOut, fanOut, Raising.each, Raising.each]
        exact congrArg _ (funext fun _ => ih)
      · rw [List.filter_cons_of_neg mine, ← ih, fanOut, Raising.each, if_neg mine, pure_bind]
        rfl

theorem count_kept (control : String) (outcome : Outcome) (log : List Entry) :
    (Entry.kept control outcome :: log).count (.called m) = log.count (.called m) :=
  List.count_cons_of_ne (by simp)

/-- Where the gate refuses, nothing is called. -/
theorem refused_count (m : String) (t : Trail σ) :
    (fanOut false c methods t).2.log.count (.called m) = t.log.count (.called m) := by
  have refused : (fanOut false c methods).Ends t
      (fun _ u => u.log.count (.called m) = t.log.count (.called m))
      fun _ u => u.log.count (.called m) = t.log.count (.called m) := by
    induction methods generalizing t with
    | nil => exact rfl
    | cons method rest ih =>
        rw [fanOut, ends_each_cons_iff, ends_ite_iff]
        refine ⟨fun _ => ?_, fun _ => ih t⟩
        have same := count_kept (m := m) (controlOf method) .refused t.log
        exact (ih _).mono (fun _ _ later => later.trans same) fun _ _ later => later.trans same
  exact refused.leaves

/-- What a method's turn leaves, with the state the method leaves. -/
def Trail.turn (t : Trail σ) (method : String) (outcome : Outcome) (s : σ) : Trail σ where
  connector := s
  log := .kept (controlOf method) outcome :: .called method :: t.log

theorem count_turn_self (t : Trail σ) (method : String) (outcome : Outcome) (s : σ) :
    (t.turn method outcome s).log.count (.called method) = t.log.count (.called method) + 1 := by
  rw [Trail.turn, count_kept, List.count_cons_self]

theorem count_turn_of_ne {method : String} (other : m ≠ method) (t : Trail σ) (outcome : Outcome)
    (s : σ) : (t.turn method outcome s).log.count (.called m) = t.log.count (.called m) := by
  rw [Trail.turn, count_kept, List.count_cons_of_ne fun same => other (Entry.called.inj same).symm]

/-- The turn of a method that is permitted. -/
theorem ends_applyOne_iff {method : String} {Q : Bool → Trail σ → Prop} {E : ε → Trail σ → Prop} :
    (applyOne true c method).Ends t Q E ↔
      (c.update method).Ends t.connector (fun _ s => Q true (t.turn method .applied s))
        fun e s => E e (t.turn method .failed s) := by
  simp only [applyOne, keep, if_true, ends_bind_iff, ends_change_iff, ends_except_iff,
    ends_within_iff, ends_raise_iff, ends_pure_iff]
  rfl

theorem applyOne_returns {method : String} {s : σ}
    (returns : (c.update method).Returns t.connector () s) :
    (applyOne true c method).Returns t true (t.turn method .applied s) := by
  have ends : (applyOne true c method).Ends t
      (fun called u => called = true ∧ u = t.turn method .applied s) fun _ _ => False := by
    refine ends_applyOne_iff.mpr (ends_iff.mpr ⟨fun _ _ returned => ?_, fun _ _ raised => ?_⟩)
    · cases returns.symm.trans returned
      exact ⟨rfl, rfl⟩
    · cases returns.symm.trans raised
  rcases returns_or_raises (applyOne true c method) t with ⟨called, u, returned⟩ | ⟨_, _, raised⟩
  · obtain ⟨rfl, rfl⟩ := ends.returns returned
    exact returned
  · exact (ends.raises raised).elim

theorem applyOne_raises {method : String} {e : ε} {s : σ}
    (raises : (c.update method).Raises t.connector e s) :
    (applyOne true c method).Raises t e (t.turn method .failed s) := by
  have ends : (applyOne true c method).Ends t (fun _ _ => False)
      fun e' u => e' = e ∧ u = t.turn method .failed s := by
    refine ends_applyOne_iff.mpr (ends_iff.mpr ⟨fun _ _ returned => ?_, fun _ _ raised => ?_⟩)
    · cases raises.symm.trans returned
    · cases raises.symm.trans raised
      exact ⟨rfl, rfl⟩
  rcases returns_or_raises (applyOne true c method) t with ⟨_, _, returned⟩ | ⟨e', u, raised⟩
  · exact (ends.returns returned).elim
  · obtain ⟨rfl, rfl⟩ := ends.raises raised
    exact raised

/-- Of methods that are all implemented, each is called once exactly if none raises before the
last. -/
theorem permitted_reaches_iff (all : ∀ m ∈ methods, c.implements m = true) (once : methods.Nodup)
    (t : Trail σ) (uncalled : ∀ m ∈ methods, t.log.count (.called m) = 0) :
    (∀ m ∈ methods, (fanOut true c methods t).2.log.count (.called m) = 1) ↔
      ∃ u, (Raising.each methods.dropLast c.update).Returns t.connector () u := by
  induction methods generalizing t with
  | nil => exact ⟨fun _ => ⟨t.connector, rfl⟩, fun _ => nofun⟩
  | cons method rest ih =>
      rw [List.nodup_cons] at once
      have mine := all method List.mem_cons_self
      have fresh := uncalled method List.mem_cons_self
      have later : ∀ m ∈ rest, m ≠ method := fun m listed same => once.1 (same ▸ listed)
      have turn : fanOut true c (method :: rest) =
          applyOne true c method >>= fun _ => fanOut true c rest := by
        rw [fanOut, Raising.each, if_pos mine, bind_assoc]
        simp only [pure_bind]
        rfl
      rcases returns_or_raises (c.update method) t.connector with ⟨⟨⟩, s, returns⟩ | ⟨e, s, raises⟩
      · -- The rest is called from the state the method leaves.
        rw [turn, (applyOne_returns returns).bind_apply]
        have rest_ := ih (fun m listed => all m (List.mem_cons_of_mem _ listed)) once.2
          (t.turn method .applied s) fun m listed => by
            rw [count_turn_of_ne (later m listed)]
            exact uncalled m (List.mem_cons_of_mem _ listed)
        have first : (fanOut true c rest (t.turn method .applied s)).2.log.count (.called method) =
            1 := by
          rw [(ends_fanOut_count once.1 _).leaves, count_turn_self, fresh]
        rw [List.forall_mem_cons, rest_]
        cases rest with
        | nil => exact ⟨fun _ => ⟨t.connector, rfl⟩, fun _ => ⟨first, s, rfl⟩⟩
        | cons second rest =>
            rw [List.dropLast_cons_of_ne_nil (List.cons_ne_nil _ _), Raising.each]
            constructor
            · rintro ⟨-, u, ends⟩
              exact ⟨u, (returns.bind_apply).trans ends⟩
            · rintro ⟨u, ends⟩
              exact ⟨first, u, (returns.bind_apply).symm.trans ends⟩
      · -- A method that raises ends the rest.
        have run : (applyOne true c method >>= fun _ => fanOut true c rest) t =
            (.error e, t.turn method .failed s) := (applyOne_raises raises).bind
        rw [turn, run]
        cases rest with
        | nil =>
            refine ⟨fun _ => ⟨t.connector, rfl⟩, fun _ m listed => ?_⟩
            rw [List.mem_singleton.mp listed, count_turn_self, fresh]
        | cons second rest =>
            constructor
            · intro reached
              have none_ := reached second (List.mem_cons_of_mem _ List.mem_cons_self)
              rw [count_turn_of_ne (later second List.mem_cons_self),
                uncalled second (List.mem_cons_of_mem _ List.mem_cons_self)] at none_
              cases none_
            · rintro ⟨u, ends⟩
              rw [List.dropLast_cons_of_ne_nil (List.cons_ne_nil _ _), Raising.each] at ends
              cases (raises.bind).symm.trans ends

/-- The methods of a list are all reached, from a state in which none has been called, exactly if
none of them raises before the last. -/
theorem reaches_fanOut_iff (permits : Bool) (c : Connector ε σ) (once : methods.Nodup) (s : σ) :
    ReachesAll c methods (fanOut permits c methods ⟨s, []⟩).2.log ↔
      NoneBeforeLastRaises permits c methods s := by
  have listed : ReachesAll c methods (fanOut permits c methods ⟨s, []⟩).2.log ↔
      ∀ m ∈ methods.filter c.implements,
        (fanOut permits c (methods.filter c.implements) ⟨s, []⟩).2.log.count (.called m) = 1 := by
    rw [ReachesAll, ← fanOut_filter]
    exact ⟨fun all m mem => all m (List.mem_filter.mp mem).1 (List.mem_filter.mp mem).2,
      fun all m mem implemented => all m (List.mem_filter.mpr ⟨mem, implemented⟩)⟩
  rw [listed, NoneBeforeLastRaises]
  cases permits with
  | false =>
      simp only [refused_count, List.count_nil, Bool.false_eq_true, false_and, or_false]
      exact ⟨fun all => List.eq_nil_iff_forall_not_mem.mpr fun m mem => absurd (all m mem) (by decide),
        fun none_ m mem => absurd (none_ ▸ mem) List.not_mem_nil⟩
  | true =>
      rw [permitted_reaches_iff (fun m mem => (List.mem_filter.mp mem).2) (once.filter _) ⟨s, []⟩
        fun _ _ => rfl]
      constructor
      · exact fun returns => .inr ⟨rfl, returns⟩
      · rintro (none_ | ⟨-, returns⟩)
        · rw [none_]
          exact ⟨s, rfl⟩
        · exact returns

/-! ### The methods of a clear and of a withdrawal -/

theorem disableCalls_eq : disableCalls =
    ["update_op_mod_connect", "update_op_mod_energize", "update_op_mod_delta_var",
      "update_op_mod_delta_w", "update_op_mod_fixed_pf_absorb_w",
      "update_op_mod_fixed_pf_inject_w", "update_op_mod_fixed_v", "update_op_mod_fixed_var",
      "update_op_mod_fixed_w", "update_op_mod_freq_droop", "update_op_mod_freq_watt",
      "update_op_mod_grid_connect_permit", "update_op_mod_hfrt_may_trip",
      "update_op_mod_hfrt_must_trip", "update_op_mod_hvrt_may_trip",
      "update_op_mod_hvrt_momentary_cessation", "update_op_mod_hvrt_must_trip",
      "update_op_mod_island_permit", "update_op_mod_lfrt_may_trip",
      "update_op_mod_lfrt_must_trip", "update_op_mod_lvrt_may_trip",
      "update_op_mod_lvrt_momentary_cessation", "update_op_mod_lvrt_must_trip",
      "update_op_mod_max_lim_pct_va_absorb", "update_op_mod_max_lim_pct_va_inject",
      "update_op_mod_max_lim_pct_var_absorb", "update_op_mod_max_lim_pct_var_inject",
      "update_op_mod_max_lim_pct_w_absorb", "update_op_mod_max_lim_var_absorb",
      "update_op_mod_max_lim_var_inject", "update_op_mod_max_lim_w",
      "update_op_mod_max_lim_w_absorb", "update_op_mod_max_lim_w_inject",
      "update_op_mod_target_v", "update_op_mod_target_var", "update_op_mod_target_w",
      "update_op_mod_volt_var", "update_op_mod_volt_watt", "update_op_mod_watt_pf",
      "update_op_mod_watt_var", "update_op_mod_exp_lim_w", "update_op_mod_imp_lim_w",
      "update_op_mod_gen_lim_w", "update_op_mod_load_lim_w"] := by
  rfl

theorem nodup_disableCalls : disableCalls.Nodup := by
  rw [disableCalls_eq]
  decide +kernel

theorem nodup_setDefault {calls : List String} (once : calls.Nodup) (method : String) :
    (setDefault calls method).Nodup := by
  unfold setDefault
  split
  · exact once
  · rename_i absent
    exact List.nodup_append.mpr ⟨once, List.nodup_singleton _, fun a mem b mem' same =>
      absent (by rw [List.mem_singleton.mp mem'] at same; exact same ▸ mem)⟩

theorem nodup_withdrawals (modes : Finset String) : (withdrawals modes).Nodup := by
  have kept : ∀ (methods calls : List String), calls.Nodup → (methods.foldl setDefault calls).Nodup := by
    intro methods
    induction methods with
    | nil => exact fun _ once => once
    | cons method rest ih => exact fun calls once => ih _ (nodup_setDefault once method)
  exact kept _ [] List.nodup_nil

/-- The withdrawals are those of the modes. -/
theorem mem_withdrawals_iff {modes : Finset String} {method : String} :
    method ∈ withdrawals modes ↔ ∃ mode ∈ modes, fieldDisableCall mode = some method := by
  have gathered : ∀ (methods calls : List String),
      method ∈ methods.foldl setDefault calls ↔ method ∈ calls ∨ method ∈ methods := by
    intro methods
    induction methods with
    | nil => simp
    | cons first rest ih =>
        intro calls
        rw [List.foldl_cons, ih, setDefault]
        split
        · rename_i there
          constructor
          · rintro (mem | mem)
            · exact .inl mem
            · exact .inr (List.mem_cons_of_mem _ mem)
          · rintro (mem | mem)
            · exact .inl mem
            · rcases List.mem_cons.mp mem with rfl | mem
              · exact .inl there
              · exact .inr mem
        · simp [or_assoc]
  rw [withdrawals, gathered]
  simp

/-- The withdrawal of every mode that is named and implemented has been called, once. -/
def ReachesModes (c : Connector ε σ) (modes : Finset String) (log : List Entry) : Prop :=
  ∀ mode ∈ modes, ∀ method, fieldDisableCall mode = some method → c.implements method = true →
    log.count (.called method) = 1

theorem reachesModes_iff {modes : Finset String} {log : List Entry} :
    ReachesModes c modes log ↔ ReachesAll c (withdrawals modes) log := by
  constructor
  · intro reaches method listed
    obtain ⟨mode, named, withdrawn⟩ := mem_withdrawals_iff.mp listed
    exact reaches mode named method withdrawn
  · exact fun reaches mode named method withdrawn =>
      reaches method (mem_withdrawals_iff.mpr ⟨mode, named, withdrawn⟩)

end Reached

end Py20305.Connectors
