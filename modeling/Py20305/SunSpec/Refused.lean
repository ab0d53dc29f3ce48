import Mathlib.Data.List.Induction
import Py20305.SunSpec.Modbus

/-!
Limits that were refused.

The controls of WMaxLimPct store their limit and then write the least of them. Where the
write does not go through, opModGenLimW puts the former limit back; the other two leave
the refused one stored, and the next control writes it (`refused_limits_iff`).
-/

namespace Py20305.SunSpec

open Raising

/-! ### Calls -/

/-- A call of one of the three controls. -/
inductive LimitCall where
  | maxLimW (enabled : Bool) (pct : Option Arg)
  | maxLimWInject (enabled : Bool) (watts : Option Arg)
  | genLimW (enabled : Bool) (watts : Option Arg)
  deriving DecidableEq

section Calls

variable {σ : Type} (b : Bus σ)

def LimitCall.run : LimitCall → Call σ Unit
  | .maxLimW enabled pct => updatePLim b enabled pct
  | .maxLimWInject enabled watts => updatePLimInj b enabled watts
  | .genLimW enabled watts => updateGenLim b enabled watts

/-- A fresh connector. -/
def World.fresh (s : σ) : World σ where
  core := .fresh
  bus := s
  log := []

/-- The state a sequence of calls leaves, whether they return or raise. -/
def after (s : σ) (calls : List LimitCall) : World σ :=
  calls.foldl (fun w call => (call.run b w).2) (World.fresh s)

/-! ### What is claimed -/

/-- The limits as they were last applied. -/
def accepted : List Note → Slot → Option ℚ
  | [], _ => none
  | .wrote _ _ _ :: older, slot => accepted older slot
  | .applied s limit :: older, slot => if slot = s then limit else accepted older slot

/-- Each value written to WMaxLimPct is the least of the limits that were applied, with the one
it is written for in its place. -/
def Merged (log : List Note) : Prop :=
  ∀ newer slot limit value older, log = newer ++ .wrote slot limit value :: older →
    least (Function.update (accepted older) slot limit) = some value

/-- The limits recorded are the same. -/
structure Kept (w t : World σ) : Prop where
  active : t.core.active = w.core.active
  watts : t.core.genLimWatts = w.core.genLimWatts

/-! ### Where it holds -/

/-- What a call does until it stores a limit that it does not put back, and that limit. -/
def LimitCall.prepare : LimitCall → Call σ (Option (Slot × Bool × Option ℚ))
  | .maxLimW true (some pct) => do
      let value ← requirePercent pct
      pure (some (.any, true, some value))
  | .maxLimW true none => pure (some (.any, true, none))
  | .maxLimW false stale => pure (some (.any, false, stale.bind Arg.toNumber))
  | .maxLimWInject true (some watts) => do
      let value ← requireWatts watts
      let model702 ← getModel b .m702
      if rateSettingIsSupported model702 .inj then do
        applyInject b model702 value
        pure none
      else do
        record fun core => { core with pLimWInj := none }
        let pct ← wattsAsPctOfWmax b value
        pure (pct.map fun pct => (.inj, true, some pct))
  | .maxLimWInject enabled _ => do
      record fun core => { core with pLimWInj := none }
      restoreMirroredWmax b
      let w ← read
      pure (if w.core.pLimSlots .inj ≠ (false, none) then some (.inj, enabled, none) else none)
  | .genLimW enabled watts => do
      updateGenLim b enabled watts
      pure none

/-- The limit the call stores goes through to the device, or was stored before. -/
def LimitCall.Served (call : LimitCall) (w : World σ) : Prop :=
  ∀ slot enabled pct t, (call.prepare b).Returns w (some (slot, enabled, pct)) t →
    (∃ u, (writeMergedPct b slot).Returns { t with core := t.core.setSlot slot (enabled, pct) } () u) ∨
      (t.core.setSlot slot (enabled, pct)).active = w.core.active

end Calls

/-! ### Requests on the bus -/

/-- Nothing is recorded or logged. -/
def SameRecord {σ : Type} (w t : World σ) : Prop := t.core = w.core ∧ t.log = w.log

/-- However the code ends, it records and logs nothing. -/
def Quiet {σ α : Type} (c : Call σ α) : Prop :=
  ∀ w, c.Ends w (fun _ t => SameRecord w t) fun _ t => SameRecord w t

section Quiet

variable {σ α β : Type} {c : Call σ α}

theorem Quiet.pure (a : α) : Quiet (pure a : Call σ α) := fun _ => ⟨rfl, rfl⟩

theorem Quiet.raise (e : Fault) : Quiet (raise e : Call σ α) := fun _ => ⟨rfl, rfl⟩

theorem Quiet.onBus (request : Raising Fault σ α) : Quiet (onBus request) := fun _ => by
  rw [SunSpec.onBus, ends_within_iff]
  exact ends_iff.mpr ⟨fun _ _ _ => ⟨rfl, rfl⟩, fun _ _ _ => ⟨rfl, rfl⟩⟩

theorem Quiet.bind {f : α → Call σ β} (first : Quiet c) (second : ∀ a, Quiet (f a)) :
    Quiet (c >>= f) := fun w => by
  rw [ends_bind_iff]
  refine (first w).mono (fun a t same => (second a t).mono ?_ ?_) fun _ _ same => same
  · exact fun _ _ same' => ⟨same'.1.trans same.1, same'.2.trans same.2⟩
  · exact fun _ _ same' => ⟨same'.1.trans same.1, same'.2.trans same.2⟩

theorem Quiet.except {handler : Fault → Call σ α} (first : Quiet c)
    (second : ∀ e, Quiet (handler e)) : Quiet (c.except handler) := fun w => by
  rw [ends_except_iff]
  refine (first w).mono (fun _ _ same => same) fun e t same => (second e t).mono ?_ ?_
  · exact fun _ _ same' => ⟨same'.1.trans same.1, same'.2.trans same.2⟩
  · exact fun _ _ same' => ⟨same'.1.trans same.1, same'.2.trans same.2⟩

theorem Quiet.ite {P : Prop} [Decidable P] {d : Call σ α} (yes : Quiet c) (no : Quiet d) :
    Quiet (if P then c else d) := by
  split
  · exact yes
  · exact no

variable (b : Bus σ)

theorem quiet_getModel (mid : ModelId) : Quiet (getModel b mid) := by
  refine .ite (.except (.onBus _) fun e => .ite (.raise _) (.bind ?_ fun _ => ?_)) (.raise _)
  · exact .except (.onBus _) fun _ => .raise _
  · exact .except (.onBus _) fun _ => .raise _

theorem quiet_writePoints (changes : List (Point × ℚ)) : Quiet (writePoints b changes) :=
  .onBus _

theorem quiet_updateEnable (point : Point) (value : ℚ) : Quiet (updateEnable b point value) :=
  .bind (.onBus _) fun _ => .bind (.onBus _) fun _ =>
    .ite (.pure _) (.bind (.onBus _) fun _ => .ite (.pure _) (.raise _))

theorem quiet_wattsAsPctOfWmax (watts : ℚ) : Quiet (wattsAsPctOfWmax b watts) :=
  .bind (quiet_getModel b _) fun _ => .pure _

theorem quiet_asNumber : ∀ arg : Arg, Quiet (asNumber arg : Call σ ℚ)
  | .number _ => .pure _
  | .unusable => .raise _

theorem quiet_requirePercent (pct : Arg) : Quiet (requirePercent pct : Call σ ℚ) :=
  .bind (quiet_asNumber pct) fun _ => .ite (.pure _) (.raise _)

theorem quiet_requireWatts (watts : Arg) : Quiet (requireWatts watts : Call σ ℚ) :=
  .bind (quiet_asNumber watts) fun _ => .ite (.raise _) (.pure _)

theorem quiet_requireUint16Watts (watts : ℚ) (wSf : Option ℚ) :
    Quiet (requireUint16Watts watts wSf : Call σ Unit) := by
  cases wSf with
  | none => exact .raise _
  | some sf => exact .ite (.pure _) (.raise _)

end Quiet

/-! ### Writing the merged limit -/

section Merging

variable {σ : Type} {b : Bus σ} {w t : World σ} {slot : Slot}

/-- At most the least limit is written, and nothing is recorded. -/
def Wrote (slot : Slot) (w t : World σ) : Prop :=
  t.core = w.core ∧ (t.log = w.log ∨ ∃ value, least w.core.active = some value ∧
    t.log = .wrote slot (w.core.active slot) value :: w.log)

theorem ends_writeMergedPct (b : Bus σ) (slot : Slot) (w : World σ) :
    (writeMergedPct b slot).Ends w (fun _ t => Wrote slot w t) fun _ t => Wrote slot w t := by
  have unwritten : ∀ {t : World σ}, SameRecord w t → Wrote slot w t := fun same =>
    ⟨same.1, .inl same.2⟩
  simp only [writeMergedPct, ends_bind_iff, ends_read_iff]
  refine (quiet_getModel b .m704 w).mono (fun model t same => ?_) fun _ _ same => unwritten same
  have then_same : ∀ {u}, SameRecord t u → SameRecord w u := fun later =>
    ⟨later.1.trans same.1, later.2.trans same.2⟩
  cases merged : t.core.computeMergedInjectPct with
  | none =>
      exact (quiet_updateEnable b .wMaxLimPctEna 0 t).mono
        (fun _ _ later => unwritten (then_same later)) fun _ _ later => unwritten (then_same later)
  | some value =>
      rw [ends_ite_iff]
      refine ⟨fun _ => unwritten same, fun _ => ?_⟩
      simp only [ends_bind_iff, ends_read_iff, note, ends_change_iff]
      refine (quiet_updateEnable b .wMaxLimPctEna 1 t).mono (fun _ u later => ?_)
        fun _ _ later => unwritten (then_same later)
      obtain ⟨core, log⟩ := then_same later
      have wrote : ∀ {v : World σ}, SameRecord { u with log := .wrote slot (u.core.active slot) value
          :: u.log } v → Wrote slot w v := by
        rintro v ⟨core', log'⟩
        refine ⟨core'.trans core, .inr ⟨value, ?_, ?_⟩⟩
        · rw [← merged, same.1]
          rfl
        · rw [log', core, log]
      exact (quiet_writePoints b _ _).mono (fun _ _ written => wrote written) fun _ _ written =>
        wrote written

theorem active_setSlot (core : Core) (slot : Slot) (enabled : Bool) (pct : Option ℚ) :
    (core.setSlot slot (enabled, pct)).active =
      Function.update core.active slot (if enabled then pct else none) := by
  funext s
  by_cases same : s = slot
  · subst same
    simp [Core.active, Core.setSlot]
  · simp [Core.active, Core.setSlot, Function.update_of_ne same]

/-- What is recorded is what was applied, and what was written is the least of it. -/
structure Good (w : World σ) : Prop where
  active : w.core.active = accepted w.log
  merged : Merged w.log

theorem Merged.wrote {log : List Note} (merged : Merged log) {limit : Option ℚ} {value : ℚ}
    (is_least : least (Function.update (accepted log) slot limit) = some value) :
    Merged (.wrote slot limit value :: log) := by
  intro newer slot' limit' value' older split_
  cases newer with
  | nil =>
      cases split_
      exact is_least
  | cons n newer =>
      obtain ⟨-, rest⟩ := List.cons.inj split_
      exact merged newer slot' limit' value' older rest

theorem Merged.applied {log : List Note} (merged : Merged log) (limit : Option ℚ) :
    Merged (.applied slot limit :: log) := by
  intro newer slot' limit' value' older split_
  cases newer with
  | nil => cases split_
  | cons n newer =>
      obtain ⟨-, rest⟩ := List.cons.inj split_
      exact merged newer slot' limit' value' older rest

/-- What a write for a limit that was stored leaves in the log. -/
theorem Good.wrote (good : Good w) {enabled : Bool} {pct : Option ℚ} {u : World σ}
    (stored : u = { w with core := w.core.setSlot slot (enabled, pct) })
    (wrote : Wrote slot u t) : accepted t.log = accepted w.log ∧ Merged t.log := by
  subst stored
  obtain ⟨-, log | ⟨value, is_least, log⟩⟩ := wrote
  · rw [log]
    exact ⟨rfl, good.merged⟩
  · rw [log]
    refine ⟨rfl, good.merged.wrote ?_⟩
    rw [active_setSlot, good.active] at is_least
    rw [active_setSlot, good.active, Function.update_self]
    exact is_least

/-- A limit that goes through is recorded; the record holds one that does not as well. -/
theorem Good.applyInjectPctSlot (good : Good w) (b : Bus σ) (slot : Slot) (enabled : Bool)
    (pct : Option ℚ) :
    (applyInjectPctSlot b slot enabled pct).Ends w
      (fun _ t => Good t ∧ t.core = w.core.setSlot slot (enabled, pct))
      fun _ t => Merged t.log ∧ accepted t.log = accepted w.log ∧
        t.core = w.core.setSlot slot (enabled, pct) := by
  simp only [SunSpec.applyInjectPctSlot, record, note, ends_bind_iff, ends_change_iff]
  refine (ends_writeMergedPct b slot _).mono (fun _ t wrote => ?_) fun _ t wrote => ?_
  · obtain ⟨same, merged⟩ := good.wrote rfl wrote
    refine ⟨⟨?_, merged.applied _⟩, wrote.1⟩
    funext s
    rw [wrote.1, active_setSlot, good.active, Function.update_apply, accepted, same]
  · obtain ⟨same, merged⟩ := good.wrote rfl wrote
    exact ⟨merged, same, wrote.1⟩

end Merging

/-! ### The generation limit -/

section GenLim

variable {σ : Type} {w t : World σ}

/-- Only the generation limit's percent may have changed. -/
structure GenOnly (w t : World σ) : Prop where
  others : ∀ slot, slot ≠ .gen → t.core.active slot = w.core.active slot
  watts : t.core.genLimWatts = w.core.genLimWatts

theorem Kept.refl (w : World σ) : Kept w w := ⟨rfl, rfl⟩

theorem Kept.genOnly (kept : Kept w t) : GenOnly w t :=
  ⟨fun _ _ => congrFun kept.active _, kept.watts⟩

theorem Kept.trans {u : World σ} (first : Kept w t) (second : Kept t u) : Kept w u :=
  ⟨second.active.trans first.active, second.watts.trans first.watts⟩

theorem Kept.of_core (same : t.core = w.core) : Kept w t := ⟨by rw [same], by rw [same]⟩

theorem Good.of_same (good : Good w) (same : SameRecord w t) : Good t :=
  ⟨by rw [same.1, same.2, good.active], by rw [same.2]; exact good.merged⟩

/-- The record and the log are good, and the limits are kept. -/
def GoodKept (w t : World σ) : Prop := Good t ∧ Kept w t

theorem Good.goodKept_of_same (good : Good w) (same : SameRecord w t) : GoodKept w t :=
  ⟨good.of_same same, .of_core same.1⟩

theorem setSlot_restored (core : Core) (slot : Slot) (limit : Bool × Option ℚ) :
    (core.setSlot slot limit).setSlot slot (core.pLimSlots slot) = core := by
  simp only [Core.setSlot, Function.update_idem, Function.update_eq_self]

/-- A generation limit that does not go through is put back. -/
theorem Good.applyGenLimSlot (good : Good w) (b : Bus σ) (watts pct : Option ℚ) :
    (applyGenLimSlot b watts pct).Ends w
      (fun _ t => Good t ∧ t.core.genLimWatts = watts ∧
        ∀ slot, slot ≠ .gen → t.core.active slot = w.core.active slot)
      fun _ t => GoodKept w t := by
  simp only [SunSpec.applyGenLimSlot, record, ends_bind_iff, ends_read_iff, ends_except_iff,
    ends_change_iff, ends_raise_iff]
  refine (good.applyInjectPctSlot b .gen watts.isSome pct).mono (fun _ t applied => ?_)
    fun _ t refused => ?_
  · obtain ⟨⟨active, merged⟩, core⟩ := applied
    refine ⟨⟨active, merged⟩, trivial, fun slot other => ?_⟩
    change t.core.active slot = _
    rw [core, active_setSlot, Function.update_of_ne other]
  · obtain ⟨merged, same, core⟩ := refused
    have restored : ({ t.core.setSlot .gen (w.core.pLimSlots .gen) with genLimUnconfirmed := true } :
        Core).active = w.core.active := by
      change (t.core.setSlot .gen (w.core.pLimSlots .gen)).active = _
      rw [core, setSlot_restored]
    refine ⟨⟨?_, merged⟩, restored, by rw [core]; rfl⟩
    rw [restored, good.active, ← same]

theorem Good.refreshGenLimPct (good : Good w) (b : Bus σ) :
    (refreshGenLimPct b).Ends w (fun _ t => Good t ∧ GenOnly w t) fun _ t => GoodKept w t := by
  simp only [SunSpec.refreshGenLimPct, ends_bind_iff, ends_read_iff]
  cases limited : w.core.genLimWatts with
  | none => exact ⟨good, (Kept.refl w).genOnly⟩
  | some watts =>
      simp only [ends_bind_iff]
      refine (quiet_wattsAsPctOfWmax b watts w).mono (fun pct t same => ?_) fun _ t same =>
        good.goodKept_of_same same
      obtain ⟨good', kept⟩ := good.goodKept_of_same same
      cases pct with
      | none => exact ⟨good', kept.genOnly⟩
      | some pct =>
          refine (good'.applyGenLimSlot b (some watts) (some pct)).mono (fun _ u applied => ?_)
            fun _ u refused => ⟨refused.1, kept.trans refused.2⟩
          obtain ⟨good'', watts', others⟩ := applied
          exact ⟨good'', fun slot other => (others slot other).trans (congrFun kept.active slot),
            watts'.trans limited.symm⟩

/-- A change of the record that no limit is part of. -/
theorem Good.of_limits {core : Core} (good : Good w) (slots : core.pLimSlots = w.core.pLimSlots) :
    Good { w with core := core } := by
  have same : core.active = w.core.active := by
    funext slot
    rw [Core.active, Core.active, slots]
  exact ⟨same.trans good.active, good.merged⟩

theorem Good.restoreMirroredWmax (good : Good w) (b : Bus σ) :
    (restoreMirroredWmax b).Ends w (fun _ t => Good t ∧ GenOnly w t) fun _ t => GoodKept w t := by
  simp only [SunSpec.restoreMirroredWmax, record, ends_bind_iff, ends_read_iff]
  cases w.core.wmaxBaseline with
  | none => exact ⟨good, (Kept.refl w).genOnly⟩
  | some baseline =>
      have quiet : Quiet (do let _ ← getModel b .m702; writePoints b [(.wMax, baseline)]) :=
        .bind (quiet_getModel b _) fun _ => quiet_writePoints b _
      have ends := quiet w
      simp only [ends_bind_iff, ends_change_iff] at ends ⊢
      refine ends.mono (fun _ t written => written.mono (fun _ t same => ?_) fun _ t same =>
        good.goodKept_of_same same) fun _ t same => good.goodKept_of_same same
      obtain ⟨good', kept⟩ := good.goodKept_of_same same
      refine (good'.refreshGenLimPct b).mono (fun _ u refreshed => ?_) fun _ u refused =>
        ⟨refused.1, kept.trans refused.2⟩
      obtain ⟨good'', others, watts⟩ := refreshed
      exact ⟨good''.of_limits rfl, fun slot other => (others slot other).trans
        (congrFun kept.active slot), watts.trans kept.watts⟩

/-- The mirror changes the baseline of the record alone. -/
theorem ends_mirrorInjectOntoWmax (model702 : Values) (watts : ℚ) (w : World σ)
    {E : Fault → World σ → Prop} : (mirrorInjectOntoWmax model702 watts).Ends w
      (fun _ t => ∃ baseline, t = { w with core := { w.core with wmaxBaseline := baseline } }) E := by
  unfold mirrorInjectOntoWmax
  cases model702 .wMax with
  | none => exact ⟨w.core.wmaxBaseline, rfl⟩
  | some wmax =>
      simp only [record, ends_bind_iff, ends_change_iff]
      cases (model702 .wMaxRtg).filter (· ≠ 0) with
      | none => exact ⟨_, rfl⟩
      | some rtg => exact ⟨_, rfl⟩

theorem Good.applyInject (good : Good w) (b : Bus σ) (model702 : Values) (watts : ℚ) :
    (applyInject b model702 watts).Ends w (fun _ t => Good t) fun _ t => GoodKept w t := by
  simp only [SunSpec.applyInject, record, ends_bind_iff, ends_change_iff]
  refine (quiet_requireUint16Watts watts _ w).mono (fun _ t same => ?_) fun _ t same =>
    good.goodKept_of_same same
  obtain ⟨good', kept⟩ := good.goodKept_of_same same
  refine (ends_mirrorInjectOntoWmax model702 watts t).mono (fun changes u mirrored => ?_)
    fun _ _ raised => raised
  obtain ⟨baseline, rfl⟩ := mirrored
  have good'' : Good { t with core := { t.core with wmaxBaseline := baseline } } :=
    good'.of_limits rfl
  have kept' : Kept w { t with core := { t.core with wmaxBaseline := baseline } } :=
    ⟨kept.active, kept.watts⟩
  refine (quiet_writePoints b _ _).mono (fun _ u same => ?_) fun _ u same =>
    ⟨good''.of_same same, kept'.trans (.of_core same.1)⟩
  have good₃ : Good { u with core := { u.core with pLimWInj := some watts } } :=
    (good''.of_same same).of_limits rfl
  have kept₃ : Kept w { u with core := { u.core with pLimWInj := some watts } } :=
    kept'.trans ⟨(Kept.of_core same.1).active, (Kept.of_core same.1).watts⟩
  exact (good₃.refreshGenLimPct b).mono (fun _ _ refreshed => refreshed.1) fun _ _ refused =>
    ⟨refused.1, kept₃.trans refused.2⟩

theorem Good.updateGenLim (good : Good w) (b : Bus σ) (enabled : Bool) (genLimW : Option Arg) :
    (updateGenLim b enabled genLimW).Ends w (fun _ t => Good t) fun _ t => GoodKept w t := by
  rcases enabled with _ | _
  · simp only [SunSpec.updateGenLim, record, ends_bind_iff, ends_read_iff, ends_change_iff,
      ends_ite_iff]
    refine ⟨fun _ => (good.applyGenLimSlot b none none).mono (fun _ t applied => ?_)
      fun _ _ refused => refused, fun _ => good.of_limits rfl⟩
    exact applied.1.of_limits rfl
  · rcases genLimW with _ | watts
    · exact good
    · simp only [SunSpec.updateGenLim, ends_bind_iff]
      refine (quiet_requireWatts watts w).mono (fun value t same => ?_) fun _ t same =>
        good.goodKept_of_same same
      obtain ⟨good', kept⟩ := good.goodKept_of_same same
      refine (quiet_wattsAsPctOfWmax b value t).mono (fun pct u same => ?_) fun _ u same =>
        ⟨good'.of_same same, kept.trans (.of_core same.1)⟩
      obtain ⟨good'', kept'⟩ := good'.goodKept_of_same same
      cases pct with
      | none => exact ⟨good'', kept.trans kept'⟩
      | some pct =>
          exact (good''.applyGenLimSlot b (some value) (some pct)).mono (fun _ _ applied => applied.1)
            fun _ _ refused => ⟨refused.1, (kept.trans kept').trans refused.2⟩

end GenLim

section Calls

variable {σ : Type} (b : Bus σ)

/-- Store a limit and write the merged one, if there is a limit. -/
def applyPrepared : Option (Slot × Bool × Option ℚ) → Call σ Unit
  | none => pure ()
  | some (slot, enabled, pct) => applyInjectPctSlot b slot enabled pct

theorem applyPrepared_ite (P : Prop) [Decidable P] (limit : Slot × Bool × Option ℚ) :
    applyPrepared b (if P then some limit else none) =
      if P then applyPrepared b (some limit) else pure () := by
  split <;> rfl

theorem clearInject_eq (enabled : Bool) :
    clearInject b enabled = (do
      record fun core => { core with pLimWInj := none }
      restoreMirroredWmax b
      let w ← read
      applyPrepared b
        (if w.core.pLimSlots .inj ≠ (false, none) then some (.inj, enabled, none) else none)) := by
  simp only [clearInject, applyPrepared_ite]
  rfl

/-- A call prepares, and then stores and writes its limit. -/
theorem LimitCall.run_eq (call : LimitCall) :
    call.run b = call.prepare b >>= fun stored => applyPrepared b stored := by
  rcases call with ⟨_ | _, pct⟩ | ⟨_ | _, watts⟩ | ⟨enabled, watts⟩
  · rfl
  · rcases pct with _ | pct
    · rfl
    · simp only [run, prepare, updatePLim, bind_assoc, pure_bind, applyPrepared]
  · simp only [run, prepare, updatePLimInj, clearInject_eq, bind_assoc, pure_bind]
  · rcases watts with _ | watts
    · simp only [run, prepare, updatePLimInj, clearInject_eq, bind_assoc, pure_bind]
    · simp only [run, prepare, updatePLimInj, bind_assoc]
      congr 1
      funext value
      congr 1
      funext model702
      split
      · simp only [bind_assoc, pure_bind, applyPrepared, bind_pure_unit]
      · simp only [applyInjectWithoutRegister, bind_assoc, pure_bind]
        congr 1
        funext _
        congr 1
        funext pct
        cases pct <;> rfl
  · simp only [run, prepare, bind_assoc, pure_bind, applyPrepared, bind_pure_unit]

end Calls

section Runs

variable {σ : Type} {b : Bus σ} {w t : World σ}

/-- Until a call stores a limit, only the generation limit's percent may change, and only by
going through. -/
theorem Good.prepare (good : Good w) (b : Bus σ) (call : LimitCall) :
    (call.prepare b).Ends w
      (fun stored t => Good t ∧ ∀ limit, stored = some limit → limit.1 ≠ .gen ∧ GenOnly w t)
      fun _ t => GoodKept w t := by
  have known : ∀ {t : World σ} {slot : Slot} {limit : Bool × Option ℚ}, slot ≠ .gen →
      GenOnly w t → ∀ l, some (slot, limit) = some l → l.1 ≠ .gen ∧ GenOnly w t := by
    intro t slot limit other only l same
    cases same
    exact ⟨other, only⟩
  have clears : ∀ (watts : Option Arg) (enabled : Bool), (enabled = true → watts = none) →
      ((LimitCall.maxLimWInject enabled watts).prepare b).Ends w
        (fun stored t => Good t ∧ ∀ limit, stored = some limit → limit.1 ≠ .gen ∧ GenOnly w t)
        fun _ t => GoodKept w t := by
    intro watts enabled clear
    have shape : (LimitCall.maxLimWInject enabled watts).prepare b = (do
        record fun core => { core with pLimWInj := none }
        SunSpec.restoreMirroredWmax b
        let w ← read
        pure (if w.core.pLimSlots .inj ≠ (false, none) then some (.inj, enabled, none) else none)) := by
      cases enabled with
      | false => rfl
      | true => rw [clear rfl]; rfl
    rw [shape]
    simp only [record, ends_bind_iff, ends_change_iff, ends_read_iff, ends_pure_iff]
    have start : Good { w with core := { w.core with pLimWInj := none } } := good.of_limits rfl
    refine (start.restoreMirroredWmax b).mono (fun _ t restored => ⟨restored.1, ?_⟩) fun _ t refused =>
      ⟨refused.1, refused.2.active, refused.2.watts⟩
    split
    · exact known (by decide) ⟨restored.2.others, restored.2.watts⟩
    · simp
  rcases call with ⟨_ | _, pct⟩ | ⟨_ | _, watts⟩ | ⟨enabled, watts⟩
  · exact ⟨good, known (by decide) (Kept.refl w).genOnly⟩
  · rcases pct with _ | pct
    · exact ⟨good, known (by decide) (Kept.refl w).genOnly⟩
    · simp only [LimitCall.prepare, ends_bind_iff, ends_pure_iff]
      refine (quiet_requirePercent pct w).mono (fun value t same => ?_) fun _ t same =>
        good.goodKept_of_same same
      obtain ⟨good', kept⟩ := good.goodKept_of_same same
      exact ⟨good', known (by decide) kept.genOnly⟩
  · exact clears watts false (by simp)
  · rcases watts with _ | watts
    · exact clears none true fun _ => rfl
    · simp only [LimitCall.prepare, ends_bind_iff]
      refine (quiet_requireWatts watts w).mono (fun value t same => ?_) fun _ t same =>
        good.goodKept_of_same same
      obtain ⟨good', kept⟩ := good.goodKept_of_same same
      refine (quiet_getModel b .m702 t).mono (fun model702 u same => ?_) fun _ u same =>
        ⟨good'.of_same same, kept.trans (.of_core same.1)⟩
      obtain ⟨good'', kept'⟩ := good'.goodKept_of_same same
      rw [ends_ite_iff]
      constructor
      · intro _
        simp only [ends_bind_iff, ends_pure_iff]
        exact (good''.applyInject b model702 value).mono (fun _ _ applied => ⟨applied, by simp⟩)
          fun _ _ refused => ⟨refused.1, (kept.trans kept').trans refused.2⟩
      · intro _
        simp only [record, ends_bind_iff, ends_change_iff, ends_pure_iff]
        have start : Good { u with core := { u.core with pLimWInj := none } } := good''.of_limits rfl
        have kept'' : Kept w { u with core := { u.core with pLimWInj := none } } :=
          (kept.trans kept').trans ⟨rfl, rfl⟩
        refine (quiet_wattsAsPctOfWmax b value _).mono (fun pct v same => ?_) fun _ v same =>
          ⟨start.of_same same, kept''.trans (.of_core same.1)⟩
        refine ⟨start.of_same same, ?_⟩
        cases pct with
        | none => simp
        | some pct => exact known (by decide) (kept''.trans (.of_core same.1)).genOnly
  · simp only [LimitCall.prepare, ends_bind_iff, ends_pure_iff]
    exact (good.updateGenLim b enabled watts).mono (fun _ _ updated => ⟨updated, by simp⟩)
      fun _ _ refused => refused

/-- A call from a good state leaves the limits where it raises, if its limit was served; and it
leaves a good state. -/
theorem Good.call (good : Good w) {call : LimitCall} (served : call.Served b w) :
    (call.run b).Ends w (fun _ t => Good t) fun _ t => GoodKept w t := by
  rw [call.run_eq, ends_bind_iff]
  refine ends_iff.mpr ⟨fun stored t prepared => ?_, fun _ t raised =>
    (good.prepare b call).raises raised⟩
  obtain ⟨good', known⟩ := (good.prepare b call).returns prepared
  rcases stored with _ | ⟨slot, enabled, pct⟩
  · exact good'
  · obtain ⟨other, only⟩ := known _ rfl
    refine ends_iff.mpr ⟨fun _ u applied => ((good'.applyInjectPctSlot b slot enabled pct).returns
      applied).1, fun e u refused => ?_⟩
    obtain ⟨merged, same, core⟩ := (good'.applyInjectPctSlot b slot enabled pct).raises refused
    rcases served slot enabled pct t prepared with ⟨v, written⟩ | before
    · -- The write goes through, so the call does not raise.
      have returns : (SunSpec.applyInjectPctSlot b slot enabled pct).Ends t (fun _ _ => True)
          fun _ _ => False := by
        simp only [SunSpec.applyInjectPctSlot, record, note, ends_bind_iff, ends_change_iff]
        refine ends_iff.mpr ⟨fun _ _ _ => trivial, fun _ _ raised => ?_⟩
        cases written.symm.trans raised
      exact (returns.raises refused).elim
    · have active : u.core.active = w.core.active := by rw [core, before]
      have watts : u.core.genLimWatts = w.core.genLimWatts := by
        rw [core]
        exact only.watts
      refine ⟨⟨?_, merged⟩, active, watts⟩
      rw [same, ← good'.active]
      funext s
      by_cases mine : s = .gen
      · rw [core, active_setSlot, mine, Function.update_of_ne other.symm]
      · rw [active, only.others s mine]

theorem Good.fresh (s : σ) : Good (World.fresh s) := by
  refine ⟨?_, fun newer _ _ _ _ split_ => ?_⟩
  · funext slot
    rfl
  · cases newer <;> cases split_

/-- After every call, what was written is the least of the limits that were applied, and a call
that raises leaves the limits recorded, exactly if every limit stored is served. -/
theorem refused_limits_iff (b : Bus σ) (s : σ) (calls : List LimitCall) :
    (∀ done call rest, calls = done ++ call :: rest →
      (∀ e t, (call.run b).Raises (after b s done) e t → Kept (after b s done) t) ∧
        Merged (after b s (done ++ [call])).log) ↔
      ∀ done call rest, calls = done ++ call :: rest → call.Served b (after b s done) := by
  constructor
  · intro holds done call rest split_ slot enabled pct t prepared
    refine Classical.or_iff_not_imp_left.mpr fun refused => ?_
    rcases returns_or_raises (writeMergedPct b slot)
        { t with core := t.core.setSlot slot (enabled, pct) } with ⟨_, u, written⟩ | ⟨e, u, raised⟩
    · exact absurd ⟨u, written⟩ refused
    · have raises : (call.run b).Raises (after b s done) e u := by
        rw [call.run_eq]
        exact prepared.bind_apply.trans raised.bind
      have kept := (holds done call rest split_).1 e u raises
      rw [← kept.active, ((ends_writeMergedPct b slot _).raises raised).1]
  · intro served done call rest split_
    have good : ∀ before after_, calls = before ++ after_ → Good (after b s before) := by
      intro before
      induction before using List.reverseRecOn with
      | nil => exact fun _ _ => Good.fresh s
      | append_singleton before last ih =>
          intro after_ split_
          rw [List.append_assoc] at split_
          have ends := (ih _ split_).call (served before last after_ split_)
          rw [after, List.foldl_append]
          exact (ends.mono (fun _ _ good => good) fun _ _ refused => refused.1).leaves
    have here := good done (call :: rest) split_
    refine ⟨fun e t raised => ((here.call (served done call rest split_)).raises raised).2, ?_⟩
    exact (good (done ++ [call]) rest (by rw [split_, List.append_assoc]; rfl)).merged

end Runs

/-! ### A write that is lost -/

/-- The client of a device that loses the first write. -/
def losingBus : Bus (Bool × Values) where
  present _ := true
  capacity _ := 10
  readModel _ := do return (← read).2
  readPoint p := do return (← read).2 p
  write changes := do
    if (← read).1 then do
      change fun s => (false, s.2)
      raise (.modbus false)
    else change fun s => (s.1, s.2.setAll changes)
  reconnect := pure ()

/-- A device with a WMax of 5 kW. -/
def fiveKilowatts : Values
  | .wMaxRtg | .wMax => some 5000
  | .wSf => some 0
  | .wMaxLimPctEna => some 0
  | .wMaxLimPct => some 100
  | _ => none

/-- A limit of 50 percent raises, and a later limit of 4 kW, 80 percent, writes 50. -/
theorem refused_limit_written :
    (∃ e t, (LimitCall.maxLimW true (some (.number 50)) |>.run losingBus).Raises
        (World.fresh (true, fiveKilowatts)) e t ∧ ¬ Kept (World.fresh (true, fiveKilowatts)) t) ∧
      ¬ Merged (after losingBus (true, fiveKilowatts)
        [.maxLimW true (some (.number 50)), .genLimW true (some (.number 4000))]).log := by
  refine ⟨⟨_, _, rfl, fun kept => ?_⟩, fun merged => ?_⟩
  · have same := congrFun kept.active .any
    exact absurd same (by decide +kernel)
  · have log : (after losingBus (true, fiveKilowatts)
        [.maxLimW true (some (.number 50)), .genLimW true (some (.number 4000))]).log =
        [.applied .gen (some 80), .wrote .gen (some 80) 50] := by decide +kernel
    have is_least := merged [.applied .gen (some 80)] .gen (some 80) 50 [] log
    exact absurd is_least (by decide +kernel)

end Py20305.SunSpec
