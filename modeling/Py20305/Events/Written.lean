import Py20305.Events.Fallback

/-!
Exactly what the fallback of an event writes.

A mode of a target is written by the fallback if the default of a device that falls back
names it there, unmasked and let through by the tracker (`Core.BringsBack`), or if the event
is still registered for it and no default names it (`Core.Withdraws`), and in no other case
(`fallback_writes_iff`). What the event is not registered for is not withdrawn
(`not_withdraws`).
-/

namespace Py20305

/-! ### One device of the plan -/

/-- What the plan of a fallback that clears nothing has on one device. -/
def Core.devicePlan (w : Core) (active : List Ref) (released : Href → Finset Mode) (d : Href) :
    FallbackPlan := w.planDevice active released false {} d

section Plan

variable {w : Core} {active : List Ref} {released : Href → Finset Mode} {d : Href}

theorem planDevice_eq (plan : FallbackPlan) : w.planDevice active released false plan d =
    { defaults := plan.defaults ++ (w.devicePlan active released d).defaults
      withdraw := plan.withdraw ++ (w.devicePlan active released d).withdraw
      clear := plan.clear
      defaultModes := plan.defaultModes ∪ (w.devicePlan active released d).defaultModes } := by
  unfold Core.devicePlan Core.planDevice
  cases w.deviceLfdi d with
  | none => simp
  | some lfdi =>
      cases w.bestDdercProgramForDevice d with
      | none =>
          by_cases none_ : released d = ∅ <;> simp [none_]
      | some pair =>
          dsimp only
          split_ifs <;> simp

theorem fallbackPlan_eq (w : Core) (active : List Ref) (released : Href → Finset Mode)
    (needs : List Href) :
    (w.fallbackPlan active released false needs).defaults =
        needs.flatMap (fun d => (w.devicePlan active released d).defaults) ∧
      (w.fallbackPlan active released false needs).withdraw =
        needs.flatMap (fun d => (w.devicePlan active released d).withdraw) ∧
      (w.fallbackPlan active released false needs).clear = [] ∧
      ∀ m, m ∈ (w.fallbackPlan active released false needs).defaultModes ↔
        ∃ d ∈ needs, m ∈ (w.devicePlan active released d).defaultModes := by
  have each : ∀ (needs : List Href) (plan : FallbackPlan),
      let whole := needs.foldl (w.planDevice active released false) plan
      whole.defaults = plan.defaults ++
          needs.flatMap (fun d => (w.devicePlan active released d).defaults) ∧
        whole.withdraw = plan.withdraw ++
          needs.flatMap (fun d => (w.devicePlan active released d).withdraw) ∧
        whole.clear = plan.clear ∧
        ∀ m, m ∈ whole.defaultModes ↔ m ∈ plan.defaultModes ∨
          ∃ d ∈ needs, m ∈ (w.devicePlan active released d).defaultModes := by
    intro needs
    induction needs with
    | nil => simp
    | cons d rest ih =>
        intro plan
        obtain ⟨defaults, withdraw, clear, names⟩ := ih (w.planDevice active released false plan d)
        rw [planDevice_eq] at defaults withdraw clear names
        refine ⟨?_, ?_, ?_, fun m => ?_⟩
        · rw [List.foldl_cons, planDevice_eq, defaults, List.flatMap_cons, List.append_assoc]
        · rw [List.foldl_cons, planDevice_eq, withdraw, List.flatMap_cons, List.append_assoc]
        · rw [List.foldl_cons, planDevice_eq, clear]
        · rw [List.foldl_cons, planDevice_eq, names]
          simp only [Finset.mem_union, List.mem_cons, exists_eq_or_imp, or_assoc]
  obtain ⟨defaults, withdraw, clear, names⟩ := each needs {}
  unfold Core.fallbackPlan
  exact ⟨by simpa using defaults, by simpa using withdraw, clear, by simpa using names⟩

end Plan

namespace Core

variable (w : Core)

/-- The default of `best` goes out to device `d`: masking has left something of it, and the
tracker lets it through. -/
def SendsDefault (active : List Ref) (d : Href) (lfdi : Lfdi) (best : DerProgramState)
    (dderc : DefaultDercontrol) : Prop :=
  ¬ (getActiveModeNames dderc.base ≠ ∅ ∧
      getActiveModeNames dderc.base \ (w.maskedDefault active d best dderc).2 = ∅) ∧
    w.dderc.shouldApply lfdi best.href best.primacy = true

/-- The fallback of event `r` writes mode `m` of `t` from a default: that of a device which
falls back, whose program reaches `t`. -/
def BringsBack (r : Ref) (t : Target) (m : Mode) : Prop :=
  ∃ d ∈ w.fallbackNeeds r, ∃ lfdi best dderc, w.deviceLfdi d = some lfdi ∧
    w.bestDdercProgramForDevice d = some (best, dderc) ∧
    (w.unregistered r).SendsDefault w.activeEvents d lfdi best dderc ∧
    t ∈ w.reachOf best.href [d] ∧
    m ∈ translatedModes ((w.unregistered r).maskedDefault w.activeEvents d best dderc).1.base

/-- The modes a default of device `d` is counted as carrying in the fallback of `r`. -/
def carriedBack (r : Ref) (d : Href) : Finset Mode :=
  match w.deviceLfdi d, w.bestDdercProgramForDevice d with
  | some _, some (best, dderc) =>
      getActiveModeNames dderc.base \
        ((w.unregistered r).maskedDefault w.activeEvents d best dderc).2
  | _, _ => ∅

/-- The modes event `r` releases on device `d` that no default carries there; without an
identity of the device, none. -/
def leftover (r : Ref) (d : Href) : Finset Mode :=
  if w.deviceLfdi d = none then ∅
  else w.modes.released d (w.record r).mrid \ w.carriedBack r d

/-- The fallback of event `r` disables mode `m` of `t`: on the device itself, or on the local
devices of the group where nobody else needs it. -/
def Withdraws (r : Ref) (t : Target) (m : Mode) : Prop :=
  m.isWithdrawable = true ∧
    match w.groupLocalLfdis (w.record r).programHref with
    | none => ∃ d ∈ w.fallbackNeeds r, t = .href d ∧ m ∈ w.leftover r d
    | some lfdis => t ∈ lfdis.map .lfdi ∧ (∃ d ∈ w.fallbackNeeds r, m ∈ w.leftover r d) ∧
        (∀ d ∈ w.fallbackNeeds r, m ∉ w.carriedBack r d) ∧
        ∀ d ∈ w.devicesOf (w.record r).programHref,
          m ∉ (w.unregistered r).modes.covered d (w.record r).mrid

/-- What the fallback of event `r` sends at its end. -/
def endCalls (r : Ref) : List Call :=
  if w.fallbackNeeds r = [] then [] else w.fallbackCalls r false

end Core

section Writes

variable {w : Core} {r : Ref} {d : Href} {t : Target} {m : Mode}

/-- The plan of one device, as `planOf` makes it. -/
theorem mem_devicePlan_defaults {target : DefaultTarget} :
    target ∈ ((w.unregistered r).devicePlan w.activeEvents
        (fun d => w.modes.released d (w.record r).mrid) d).defaults ↔
      ∃ lfdi best dderc, w.deviceLfdi d = some lfdi ∧
        w.bestDdercProgramForDevice d = some (best, dderc) ∧
        (w.unregistered r).SendsDefault w.activeEvents d lfdi best dderc ∧
        target = ⟨d, lfdi, best, w.epoch best.href,
          ((w.unregistered r).maskedDefault w.activeEvents d best dderc).1,
          ((w.unregistered r).maskedDefault w.activeEvents d best dderc).2 ≠ ∅⟩ := by
  have identity : (w.unregistered r).deviceLfdi d = w.deviceLfdi d := rfl
  have best_ : (w.unregistered r).bestDdercProgramForDevice d = w.bestDdercProgramForDevice d := rfl
  unfold Core.devicePlan Core.planDevice
  rw [identity, best_]
  cases w.deviceLfdi d with
  | none => simp
  | some lfdi =>
      cases w.bestDdercProgramForDevice d with
      | none =>
          dsimp only
          split_ifs <;> simp
      | some pair =>
          obtain ⟨best, dderc⟩ := pair
          dsimp only
          split_ifs with sent
          · constructor
            · intro member
              exact ⟨lfdi, best, dderc, rfl, rfl, sent, List.mem_singleton.mp member⟩
            · rintro ⟨_, _, _, same, same', -, rfl⟩
              cases same
              cases same'
              exact List.mem_singleton.mpr rfl
          · constructor
            · exact fun member => absurd member List.not_mem_nil
            · rintro ⟨_, _, _, same, same', sent', -⟩
              cases same
              cases same'
              exact absurd sent' sent

theorem mem_devicePlan_defaultModes :
    m ∈ ((w.unregistered r).devicePlan w.activeEvents
        (fun d => w.modes.released d (w.record r).mrid) d).defaultModes ↔ m ∈ w.carriedBack r d := by
  have identity : (w.unregistered r).deviceLfdi d = w.deviceLfdi d := rfl
  have best_ : (w.unregistered r).bestDdercProgramForDevice d = w.bestDdercProgramForDevice d := rfl
  unfold Core.devicePlan Core.planDevice Core.carriedBack
  rw [identity, best_]
  cases w.deviceLfdi d with
  | none => simp
  | some lfdi =>
      cases w.bestDdercProgramForDevice d with
      | none =>
          dsimp only
          split_ifs <;> simp
      | some pair => simp

theorem devicePlan_withdraw :
    ((w.unregistered r).devicePlan w.activeEvents
        (fun d => w.modes.released d (w.record r).mrid) d).withdraw =
      if w.leftover r d = ∅ then [] else [(d, w.leftover r d)] := by
  have identity : (w.unregistered r).deviceLfdi d = w.deviceLfdi d := rfl
  have best_ : (w.unregistered r).bestDdercProgramForDevice d = w.bestDdercProgramForDevice d := rfl
  unfold Core.devicePlan Core.planDevice Core.leftover Core.carriedBack
  rw [identity, best_]
  cases w.deviceLfdi d with
  | none => simp
  | some lfdi =>
      cases w.bestDdercProgramForDevice d with
      | none => by_cases none_ : w.modes.released d (w.record r).mrid = ∅ <;> simp [none_]
      | some pair => simp

/-- The planned defaults write what is brought back. -/
theorem plannedCalls_writes_iff :
    (∃ call ∈ (w.unregistered r).plannedCalls r (w.planOf r false), (call.writes t m).isSome = true) ↔
      w.BringsBack r t m := by
  have defaults := (fallbackPlan_eq (w.unregistered r) w.activeEvents
    (fun d => w.modes.released d (w.record r).mrid) (w.fallbackNeeds r)).1
  unfold Core.plannedCalls Core.planOf
  rw [defaults]
  constructor
  · rintro ⟨call, listed, writes⟩
    obtain ⟨target, planned, made⟩ := List.mem_flatMap.mp listed
    obtain ⟨d, needs, own⟩ := List.mem_flatMap.mp planned
    obtain ⟨lfdi, best, dderc, identity, found, sent, rfl⟩ := mem_devicePlan_defaults.mp own
    obtain ⟨u, reached, rfl⟩ := List.mem_map.mp made
    simp only [Call.writes, Option.isSome_ite] at writes
    exact ⟨d, needs, lfdi, best, dderc, identity, found, sent, writes.1 ▸ reached, writes.2⟩
  · rintro ⟨d, needs, lfdi, best, dderc, identity, found, sent, reached, named⟩
    refine ⟨.defaultControl t ((w.unregistered r).maskedDefault w.activeEvents d best dderc).1
      (some ((w.unregistered r).record r).mrid), ?_, by simp [Call.writes, named]⟩
    refine List.mem_flatMap.mpr ⟨_, List.mem_flatMap.mpr ⟨d, needs, mem_devicePlan_defaults.mpr
      ⟨lfdi, best, dderc, identity, found, sent, rfl⟩⟩, ?_⟩
    exact List.mem_map.mpr ⟨t, reached, rfl⟩

theorem mem_withdraw {modes : Finset Mode} :
    (d, modes) ∈ (w.planOf r false).withdraw ↔
      d ∈ w.fallbackNeeds r ∧ modes = w.leftover r d ∧ w.leftover r d ≠ ∅ := by
  have withdraw := (fallbackPlan_eq (w.unregistered r) w.activeEvents
    (fun d => w.modes.released d (w.record r).mrid) (w.fallbackNeeds r)).2.1
  unfold Core.planOf
  rw [withdraw, List.mem_flatMap]
  simp only [devicePlan_withdraw]
  constructor
  · rintro ⟨e, needs, listed⟩
    split at listed
    · exact absurd listed List.not_mem_nil
    · rename_i some_
      cases List.mem_singleton.mp listed
      exact ⟨needs, rfl, some_⟩
  · rintro ⟨needs, rfl, some_⟩
    exact ⟨d, needs, by rw [if_neg some_]; exact List.mem_singleton.mpr rfl⟩

/-- The withdrawal writes what is withdrawn. -/
theorem withdrawCalls_writes_iff :
    (∃ call ∈ (w.unregistered r).withdrawCalls r (w.uniqueDevices (w.record r).programHref)
        (w.planOf r false), (call.writes t m).isSome = true) ↔ w.Withdraws r t m := by
  have names := (fallbackPlan_eq (w.unregistered r) w.activeEvents
    (fun d => w.modes.released d (w.record r).mrid) (w.fallbackNeeds r)).2.2.2
  have carried : ∀ m, m ∈ (w.planOf r false).defaultModes ↔
      ∃ d ∈ w.fallbackNeeds r, m ∈ w.carriedBack r d := by
    intro m
    unfold Core.planOf
    rw [names]
    simp only [mem_devicePlan_defaultModes]
  unfold Core.withdrawCalls Core.Withdraws
  dsimp only
  rw [groupLocalLfdis_unregistered]
  cases w.groupLocalLfdis (w.record r).programHref with
  | none =>
      dsimp only
      constructor
      · rintro ⟨call, listed, writes⟩
        obtain ⟨⟨d, modes⟩, planned, rfl⟩ := List.mem_map.mp listed
        obtain ⟨needs, rfl, -⟩ := mem_withdraw.mp planned
        simp only [Call.writes, Option.isSome_ite] at writes
        exact ⟨writes.2.2, d, needs, writes.1.symm, writes.2.1⟩
      · rintro ⟨withdrawable, d, needs, rfl, left⟩
        refine ⟨_, List.mem_map.mpr ⟨(d, w.leftover r d),
          mem_withdraw.mpr ⟨needs, rfl, Finset.ne_empty_of_mem left⟩, rfl⟩, ?_⟩
        simp [Call.writes, left, withdrawable]
  | some lfdis =>
      dsimp only
      have gone : ∀ m, m ∈ unionModes ((w.planOf r false).withdraw.map Prod.snd) \
          ((w.planOf r false).defaultModes ∪ unionModes
            ((w.uniqueDevices (w.record r).programHref).map fun d =>
              (w.unregistered r).modes.covered d ((w.unregistered r).record r).mrid)) ↔
          (∃ d ∈ w.fallbackNeeds r, m ∈ w.leftover r d) ∧
            (∀ d ∈ w.fallbackNeeds r, m ∉ w.carriedBack r d) ∧
            ∀ d ∈ w.devicesOf (w.record r).programHref,
              m ∉ (w.unregistered r).modes.covered d (w.record r).mrid := by
        intro m
        have left : m ∈ unionModes ((w.planOf r false).withdraw.map Prod.snd) ↔
            ∃ d ∈ w.fallbackNeeds r, m ∈ w.leftover r d := by
          rw [mem_unionModes]
          constructor
          · rintro ⟨modes, listed, member⟩
            obtain ⟨⟨d, modes⟩, planned, rfl⟩ := List.mem_map.mp listed
            obtain ⟨needs, rfl, -⟩ := mem_withdraw.mp planned
            exact ⟨d, needs, member⟩
          · rintro ⟨d, needs, member⟩
            exact ⟨_, List.mem_map.mpr ⟨(d, _),
              mem_withdraw.mpr ⟨needs, rfl, Finset.ne_empty_of_mem member⟩, rfl⟩, member⟩
        have others : m ∈ unionModes ((w.uniqueDevices (w.record r).programHref).map fun d =>
            (w.unregistered r).modes.covered d ((w.unregistered r).record r).mrid) ↔
            ∃ d ∈ w.devicesOf (w.record r).programHref,
              m ∈ (w.unregistered r).modes.covered d (w.record r).mrid := by
          rw [mem_unionModes]
          constructor
          · rintro ⟨modes, listed, member⟩
            obtain ⟨d, mapped, rfl⟩ := List.mem_map.mp listed
            exact ⟨d, mem_uniqueDevices.mp mapped, member⟩
          · rintro ⟨d, mapped, member⟩
            exact ⟨_, List.mem_map.mpr ⟨d, mem_uniqueDevices.mpr mapped, rfl⟩, member⟩
        rw [Finset.mem_sdiff, Finset.mem_union, left, carried, others]
        push Not
        rfl
      constructor
      · rintro ⟨call, listed, writes⟩
        split at listed
        · exact absurd listed List.not_mem_nil
        · obtain ⟨l, local_, rfl⟩ := List.mem_map.mp listed
          simp only [Call.writes, Option.isSome_ite] at writes
          exact ⟨writes.2.2, List.mem_map.mpr ⟨l, List.mem_eraseDups.mp local_, writes.1⟩,
            (gone m).mp writes.2.1⟩
      · rintro ⟨withdrawable, reached, dropped⟩
        obtain ⟨l, local_, rfl⟩ := List.mem_map.mp reached
        have dropped := (gone m).mpr dropped
        rw [if_neg (Finset.ne_empty_of_mem dropped)]
        exact ⟨_, List.mem_map.mpr ⟨l, List.mem_eraseDups.mpr local_, rfl⟩,
          by simp [Call.writes, dropped, withdrawable]⟩

/-- A fallback at an event's end writes what it brings back and what it withdraws. -/
theorem fallback_writes_iff :
    (∃ call ∈ w.endCalls r, (call.writes t m).isSome = true) ↔
      w.BringsBack r t m ∨ w.Withdraws r t m := by
  rw [← plannedCalls_writes_iff, ← withdrawCalls_writes_iff]
  have clears : (w.unregistered r).plannedClears r (w.planOf r false) = [] := by
    unfold Core.plannedClears Core.planOf
    rw [if_pos (fallbackPlan_eq _ _ _ _).2.2.1]
  unfold Core.endCalls
  by_cases none_ : w.fallbackNeeds r = []
  · rw [if_pos none_, plannedCalls_writes_iff, withdrawCalls_writes_iff]
    constructor
    · rintro ⟨call, listed, -⟩
      exact absurd listed List.not_mem_nil
    · rintro (⟨d, needs, -⟩ | ⟨-, withdraws⟩)
      · rw [none_] at needs
        exact absurd needs List.not_mem_nil
      · split at withdraws
        · obtain ⟨d, needs, -⟩ := withdraws
          rw [none_] at needs
          exact absurd needs List.not_mem_nil
        · obtain ⟨-, ⟨d, needs, -⟩, -⟩ := withdraws
          rw [none_] at needs
          exact absurd needs List.not_mem_nil
  · rw [if_neg none_]
    unfold Core.fallbackCalls
    dsimp only
    rw [clears, List.append_nil]
    simp only [List.mem_append, or_and_right, exists_or]

/-- What nobody is registered for on the devices behind `t` is not withdrawn there. -/
theorem not_withdraws (unregistered : ∀ d, (∃ l, t = .lfdi l) ∨ t = .href d →
    w.modes.modesOf d (w.record r).mrid = ∅) : ¬ w.Withdraws r t m := by
  have nothing : ∀ d, (∃ l, t = .lfdi l) ∨ t = .href d → m ∉ w.leftover r d := by
    intro d behind member
    unfold Core.leftover at member
    split at member
    · exact absurd member (Finset.notMem_empty m)
    · have released := (ActiveModeTracker.mem_released.mp (Finset.mem_sdiff.mp member).1).1
      rw [unregistered d behind] at released
      exact absurd released (Finset.notMem_empty m)
  rintro ⟨-, withdraws⟩
  split at withdraws
  · obtain ⟨d, -, own, left⟩ := withdraws
    exact nothing d (.inr own) left
  · obtain ⟨reached, ⟨d, -, left⟩, -⟩ := withdraws
    obtain ⟨l, -, rfl⟩ := List.mem_map.mp reached
    exact nothing d (.inl ⟨l, rfl⟩) left

/-- Nothing the fallback sends is a control. -/
theorem endCalls_isControl {call : Call} (listed : call ∈ w.endCalls r) : call.isControl = false := by
  unfold Core.endCalls at listed
  split at listed
  · exact absurd listed List.not_mem_nil
  · unfold Core.fallbackCalls at listed
    dsimp only at listed
    rcases List.mem_append.mp listed with listed | cleared
    · rcases List.mem_append.mp listed with planned | withdrawn
      · obtain ⟨target, -, made⟩ := List.mem_flatMap.mp planned
        obtain ⟨u, -, rfl⟩ := List.mem_map.mp made
        rfl
      · unfold Core.withdrawCalls at withdrawn
        dsimp only at withdrawn
        split at withdrawn
        · obtain ⟨e, -, rfl⟩ := List.mem_map.mp withdrawn
          rfl
        · split at withdrawn
          · exact absurd withdrawn List.not_mem_nil
          · obtain ⟨l, -, rfl⟩ := List.mem_map.mp withdrawn
            rfl
    · unfold Core.plannedClears Core.clearCalls at cleared
      dsimp only at cleared
      split at cleared
      · exact absurd cleared List.not_mem_nil
      · split at cleared
        · obtain ⟨e, -, rfl⟩ := List.mem_map.mp cleared
          rfl
        · obtain ⟨l, -, rfl⟩ := List.mem_map.mp cleared
          rfl

end Writes

end Py20305
