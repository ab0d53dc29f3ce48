import Py20305.Connectors.Dispatcher
import Py20305.SunSpec.Homes

/-!
Clearing a SunSpec device.

The dispatcher calls the withdrawals one after the other and stops at the first that
raises. A SunSpec device raises where it lacks the model of an element, so that a device
without one of the models 703, 705, 706, 711 and 712 keeps its generation limit
(`clear_reaches_iff`).
-/

namespace Py20305.SunSpec

open Raising Connectors

/-! ### The connector -/

/-- The elements of `CORE_METHOD`, in the order of `DISABLE_CALLS`. -/
def Element.all : List Element :=
  [.connect, .energize, .fixedPFAbsorbW, .fixedPFInjectW, .fixedVar, .fixedW, .freqDroop, .maxLimW,
    .maxLimWAbsorb, .maxLimWInject, .targetW, .voltVar, .voltWatt, .wattVar, .genLimW, .loadLimW]

def Element.name : Element → String
  | voltVar => "opModVoltVar"
  | voltWatt => "opModVoltWatt"
  | wattVar => "opModWattVar"
  | maxLimW => "opModMaxLimW"
  | maxLimWInject => "opModMaxLimWInject"
  | maxLimWAbsorb => "opModMaxLimWAbsorb"
  | freqDroop => "opModFreqDroop"
  | fixedVar => "opModFixedVar"
  | fixedPFInjectW => "opModFixedPFInjectW"
  | fixedPFAbsorbW => "opModFixedPFAbsorbW"
  | fixedW => "opModFixedW"
  | targetW => "opModTargetW"
  | genLimW => "opModGenLimW"
  | loadLimW => "opModLoadLimW"
  | connect => "opModConnect"
  | energize => "opModEnergize"

def Element.method (e : Element) : String := "update_" ++ snakeCase e.name

/-- The element a method is for. -/
def elementOf (method : String) : Option Element := Element.all.find? fun e => e.method = method

/-- A `SunSpecConnector`: a method for each element of `CORE_METHOD`. -/
def sunSpecConnector {σ : Type} (b : Bus σ) : Connector Fault (Site σ) where
  implements method := (elementOf method).isSome
  update method :=
    match elementOf method with
    | some e => applyElement b ⟨e, none⟩
    | none => pure ()

theorem methods_eq : Element.all.map Element.method =
    ["update_op_mod_connect", "update_op_mod_energize", "update_op_mod_fixed_pf_absorb_w",
      "update_op_mod_fixed_pf_inject_w", "update_op_mod_fixed_var", "update_op_mod_fixed_w",
      "update_op_mod_freq_droop", "update_op_mod_max_lim_w", "update_op_mod_max_lim_w_absorb",
      "update_op_mod_max_lim_w_inject", "update_op_mod_target_w", "update_op_mod_volt_var",
      "update_op_mod_volt_watt", "update_op_mod_watt_var", "update_op_mod_gen_lim_w",
      "update_op_mod_load_lim_w"] := by
  rfl

theorem nodup_methods : (Element.all.map Element.method).Nodup := by
  rw [methods_eq]
  decide +kernel

theorem elementOf_isSome_iff (method : String) :
    (elementOf method).isSome = true ↔ method ∈ Element.all.map Element.method := by
  simp only [elementOf, List.find?_isSome, decide_eq_true_eq, List.mem_map]

theorem elementOf_method (e : Element) : elementOf e.method = some e := by
  have listed : ∀ e : Element, e ∈ Element.all := fun e => by cases e <;> decide
  have some_ : (elementOf e.method).isSome := by
    rw [elementOf, List.find?_isSome]
    exact ⟨e, listed e, decide_eq_true rfl⟩
  obtain ⟨found, is_found⟩ := Option.isSome_iff_exists.mp some_
  have same : found.method = e.method := by
    rw [elementOf] at is_found
    simpa using List.find?_some is_found
  rw [is_found, List.inj_on_of_nodup_map nodup_methods (listed found) (listed e) same]

/-- What a clear calls of a SunSpec connector. -/
theorem filter_disableCalls {σ : Type} (b : Bus σ) :
    disableCalls.filter (sunSpecConnector b).implements = Element.all.map Element.method := by
  have listed : disableCalls.filter (sunSpecConnector b).implements =
      disableCalls.filter (· ∈ Element.all.map Element.method) :=
    List.filter_congr fun method _ =>
      Bool.eq_iff_iff.mpr ((elementOf_isSome_iff method).trans decide_eq_true_iff.symm)
  rw [listed, disableCalls_eq, methods_eq]
  decide +kernel

/-! ### A generation limit that is kept -/

section Kept

variable {present : ModelId → Bool} {capacity : Curve → Nat}

/-- A generation limit is on, and no inject limit. -/
structure GenOn (w : World Values) : Prop where
  gen : ∃ pct, w.core.pLimSlots .gen = (true, some pct)
  inj : w.core.pLimSlots .inj = (false, none)
  baseline : w.core.wmaxBaseline = none
  enabled : w.bus .wMaxLimPctEna = some 1

/-- The limit is on after it has been applied to a fresh connector. -/
theorem ends_applyElement_genLimW (v₀ : Values) (q : Quantity) :
    (applyElement (deviceBus present capacity) ⟨.genLimW, some q⟩).Ends (Site.fresh v₀)
      (fun _ s => GenOn s.core) fun _ _ => True := by
  simp only [applyElement, ends_bind_iff, ends_read_iff, ends_change_iff, ends_except_iff,
    ends_within_iff, ends_raise_iff]
  change (updateGenLim _ true (some (.number q.scaled))).Ends _ _ _
  simp only [updateGenLim, ends_bind_iff, ends_requireWatts]
  split
  · trivial
  simp only [wattsAsPctOfWmax, ends_bind_iff, ends_getModel_device, ends_pure_iff]
  split
  swap
  · trivial
  split
  · trivial
  · rename_i pct _
    refine (gives_applyGenLimSlot (some q.scaled) (some pct) _).mono (fun _ t applied => ?_)
      fun _ _ _ => trivial
    obtain ⟨core, merging, -⟩ := applied
    have slot : t.core.pLimSlots .gen = (true, some pct) := by
      rw [core]
      rfl
    have active : t.core.active .gen = some pct := by rw [Core.active, slot]; rfl
    obtain ⟨low, found⟩ := Option.isSome_iff_exists.mp (least_isSome_of active)
    rw [Merging, found] at merging
    exact ⟨⟨pct, slot⟩, by rw [core]; rfl, by rw [core]; rfl, merging.1⟩

theorem GenOn.frame {h : Home} {w t : World Values} (on : GenOn w) (frame : Frame h w t)
    (other : h ≠ .limits) : GenOn t where
  gen := by rw [frame.slots other]; exact on.gen
  inj := by rw [frame.slots other]; exact on.inj
  baseline := (frame.baseline other).trans on.baseline
  enabled := (frame.points .wMaxLimPctEna other.symm).trans on.enabled

/-- The withdrawal of opModMaxLimW writes the generation limit again. -/
theorem GenOn.withdrawMaxLimW {w : World Values} (on : GenOn w) :
    (updatePLim (deviceBus present capacity) false none).Ends w (fun _ t => GenOn t)
      fun _ t => GenOn t := by
  obtain ⟨pct, gen⟩ := on.gen
  change (applyInjectPctSlot _ .any false none).Ends w _ _
  simp only [applyInjectPctSlot, record, note, ends_bind_iff, ends_change_iff, writeMergedPct,
    ends_getModel_device, ends_read_iff]
  have stored : ∀ slot, slot ≠ .any →
      (w.core.setSlot .any (false, none)).pLimSlots slot = w.core.pLimSlots slot :=
    fun slot other => Function.update_of_ne other ..
  have kept : ∀ {bus : Values} {log : List Note}, bus .wMaxLimPctEna = some 1 →
      GenOn { core := w.core.setSlot .any (false, none), bus := bus, log := log } :=
    fun {bus log} enabled => ⟨⟨pct, (stored .gen (by decide)).trans gen⟩,
      (stored .inj (by decide)).trans on.inj, on.baseline, enabled⟩
  split
  swap
  · exact kept on.enabled
  have active : (w.core.setSlot .any (false, none)).active .gen = some pct := by
    rw [Core.active, stored .gen (by decide), gen]
    rfl
  obtain ⟨low, found⟩ := Option.isSome_iff_exists.mp (least_isSome_of active)
  rw [Core.computeMergedInjectPct, found]
  simp only [ends_ite_iff, controlUnsupported, ends_raise_iff, ends_bind_iff,
    ends_updateEnable_device, ends_read_iff, ends_change_iff, ends_writePoints_device]
  refine ⟨fun _ => kept on.enabled, fun _ => ?_⟩
  have there : (w.bus .wMaxLimPctEna).isSome := by rw [on.enabled]; rfl
  rw [if_pos there]
  refine kept ?_
  rw [setAll_of_notMem (by simp), set_of_isSome there]

/-- A withdrawal of another element leaves the limit on, however it ends. -/
theorem GenOn.withdraw {s : Site Values} (on : GenOn s.core) {e : Element} (other : e ≠ .genLimW) :
    (applyElement (deviceBus present capacity) ⟨e, none⟩).Ends s (fun _ t => GenOn t.core)
      fun _ t => GenOn t.core := by
  simp only [applyElement, ends_bind_iff, ends_read_iff, ends_change_iff, ends_except_iff,
    ends_within_iff, ends_raise_iff]
  have stays := stays_translate present capacity s.controls ⟨e, none⟩ s.core
  by_cases home : e.home = .limits
  · cases e with
    | maxLimW => exact on.withdrawMaxLimW
    | maxLimWInject =>
        change (updatePLimInj _ false none).Ends s.core _ _
        simp only [updatePLimInj, clearInject, restoreMirroredWmax, record, ends_bind_iff,
          ends_change_iff, ends_read_iff, on.baseline, ends_pure_iff, on.inj]
        rw [if_neg (by simp)]
        exact ⟨on.gen, on.inj, rfl, on.enabled⟩
    | genLimW => exact absurd rfl other
    | _ => cases home
  · exact stays.mono (fun _ _ frame => on.frame frame home) fun _ _ frame => on.frame frame home

/-- The element whose withdrawal needs a model. -/
def ModelId.element : ModelId → Option Element
  | .m703 => some .connect
  | .m705 => some .voltVar
  | .m706 => some .voltWatt
  | .m711 => some .freqDroop
  | .m712 => some .wattVar
  | _ => none

/-- Without its model the withdrawal of an element raises. -/
theorem ends_withdraw_of_missing {mid : ModelId} {e : Element} (needs : mid.element = some e)
    (missing : present mid = false) (s : Site Values) :
    (applyElement (deviceBus present capacity) ⟨e, none⟩).Ends s (fun _ _ => False)
      fun _ _ => True := by
  simp only [applyElement, ends_bind_iff, ends_read_iff, ends_change_iff, ends_except_iff,
    ends_within_iff, ends_raise_iff]
  cases mid with
  | m703 =>
      cases needs
      change (updateConnect _ _).Ends s.core _ _
      rw [updateConnect, if_neg (by simp [deviceBus, missing])]
      trivial
  | m705 =>
      cases needs
      change (updateQv _ none).Ends s.core _ _
      simp only [updateQv, updateCurve, ends_bind_iff, ends_getModel_device, Curve.model, missing]
      trivial
  | m706 =>
      cases needs
      change (updatePv _ none).Ends s.core _ _
      simp only [updatePv, updateCurve, ends_bind_iff, ends_getModel_device, Curve.model, missing]
      trivial
  | m711 =>
      cases needs
      change (updatePf _ none).Ends s.core _ _
      simp only [updatePf, ends_bind_iff, ends_getModel_device, missing]
      trivial
  | m712 =>
      cases needs
      change (updateQp _ none).Ends s.core _ _
      simp only [updateQp, updateCurve, ends_bind_iff, ends_getModel_device, Curve.model, missing]
      trivial
  | m702 => cases needs
  | m704 => cases needs

/-- A fan-out that comes to an element without its model ends there, and the limit stays on. -/
theorem GenOn.fanOut (capacity : Curve → Nat) {mid : ModelId} {e : Element}
    (needs : mid.element = some e) (missing : present mid = false) {before : List Element}
    (rest : List Element) (there : e ∈ before)
    (others : .genLimW ∉ before) {t : Trail (Site Values)} (on : GenOn t.connector.core) :
    (Connectors.fanOut true (sunSpecConnector (deviceBus present capacity))
      ((before ++ rest).map Element.method)).Ends t (fun _ u => GenOn u.connector.core)
        fun _ u => GenOn u.connector.core := by
  induction before generalizing t with
  | nil => cases there
  | cons first before ih =>
      rw [List.mem_cons, not_or] at others
      rw [List.cons_append, List.map_cons, Connectors.fanOut, ends_each_cons_iff]
      have mine : (sunSpecConnector (deviceBus present capacity)).implements first.method = true := by
        change (elementOf first.method).isSome = true
        rw [elementOf_method]
        rfl
      have update : (sunSpecConnector (deviceBus present capacity)).update first.method =
          applyElement (deviceBus present capacity) ⟨first, none⟩ := by
        change (match elementOf first.method with
          | some e => applyElement (deviceBus present capacity) ⟨e, none⟩
          | none => pure ()) = _
        rw [elementOf_method]
      rw [if_pos mine, ends_bind_iff, ends_applyOne_iff, update]
      by_cases same : e = first
      · subst same
        exact ((on.withdraw (Ne.symm others.1)).and (ends_withdraw_of_missing needs missing _)).mono
          (fun _ _ both => both.2.elim) fun _ _ both => both.1
      · refine (on.withdraw (Ne.symm others.1)).mono (fun _ s left => ?_) fun _ _ left => left
        exact ih ((List.mem_cons.mp there).resolve_left same) others.2 left

end Kept

/-- All calls of a clear and of a withdrawal are made exactly if none that is implemented raises
before the last; and a SunSpec device without one of the five models keeps its generation limit
through a clear. -/
theorem clear_reaches_iff {ε σ : Type} (permits : Bool) (c : Connector ε σ) (s : σ) :
    (ReachesAll c disableCalls (clearControl permits c ⟨s, []⟩).2.log ↔
      NoneBeforeLastRaises permits c disableCalls s) ∧
    (∀ modes : Finset String,
      ReachesModes c modes (disableModes permits c modes ⟨s, []⟩).2.log ↔
        NoneBeforeLastRaises permits c (withdrawals modes) s) ∧
    ∀ (present : ModelId → Bool) (capacity : Curve → Nat) (v₀ : Values) (q : Quantity)
      (s : Site Values), (∃ mid ∈ [.m703, .m705, .m706, .m711, .m712], present mid = false) →
      (applyElement (deviceBus present capacity) ⟨.genLimW, some q⟩).Returns (Site.fresh v₀) () s →
        (clearControl true (sunSpecConnector (deviceBus present capacity)) ⟨s, []⟩).2.connector.core.bus
          .wMaxLimPctEna = some 1 := by
  refine ⟨reaches_fanOut_iff permits c nodup_disableCalls s,
    fun modes => reachesModes_iff.trans
      (reaches_fanOut_iff permits c (nodup_withdrawals modes) s), ?_⟩
  rintro present capacity v₀ q s ⟨mid, needed, missing⟩ applied
  have on : GenOn s.core := (ends_applyElement_genLimW v₀ q).returns applied
  obtain ⟨e, needs, there⟩ : ∃ e, mid.element = some e ∧ e ∈ Element.all.take 14 := by
    simp only [List.mem_cons, List.not_mem_nil, or_false] at needed
    rcases needed with rfl | rfl | rfl | rfl | rfl <;> exact ⟨_, rfl, by decide⟩
  have left := GenOn.fanOut capacity needs missing (Element.all.drop 14) there (by decide)
    (t := ⟨s, []⟩) on
  rw [List.take_append_drop, ← filter_disableCalls (deviceBus present capacity), ← fanOut_filter] at left
  exact left.leaves.enabled

/-- A device without model 703. -/
def no703 : ModelId → Bool
  | .m703 => false
  | _ => true

/-- A limit of 4 kW outlives the clear of a device without model 703. -/
theorem limit_outlives_clear :
    (clearControl true (sunSpecConnector (deviceBus no703 fun _ => 10))
      ⟨(applyElement (deviceBus no703 fun _ => 10) ⟨.genLimW, some (⟨4000, 0⟩ : Quantity)⟩
        (Site.fresh fiveKilowatts)).2, []⟩).2.connector.core.bus .wMaxLimPctEna = some 1 :=
  (clear_reaches_iff true (sunSpecConnector (deviceBus no703 fun _ => 10))
    (Site.fresh fiveKilowatts)).2.2 no703 (fun _ => 10) fiveKilowatts ⟨4000, 0⟩ _ ⟨.m703, by decide, rfl⟩
    (Prod.ext (by decide +kernel) rfl)

/-- Without model 703 a clear raises at opModConnect, and calls nothing else. -/
theorem clear_stops : ¬ ReachesAll (sunSpecConnector (deviceBus no703 fun _ => 10)) disableCalls
    (clearControl true (sunSpecConnector (deviceBus no703 fun _ => 10))
      ⟨Site.fresh fun _ => some 0, []⟩).2.log := by
  intro reaches
  have called := reaches Element.maxLimW.method (by decide +kernel) (by decide +kernel)
  exact absurd called (by decide +kernel)

end Py20305.SunSpec
