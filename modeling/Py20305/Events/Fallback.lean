import Py20305.Events.Alone
import Py20305.Events.Devices

/-!
What `_apply_dderc_fallback` decides and what it sends.

A device that needs a fallback has each mode released there either named by the
default that is sent, or withdrawn, or cleared (`fallbackPlan_covers`); running
alone, the fallback sends exactly the planned calls (`eval_fallback`), and
together they write over every mode it released on a device that was not left to
others (`fallback_writes`).
-/

namespace Py20305

open Coroutine Co

/-! ### The plan -/

/-- The best default of a device is one of a program it is mapped to. -/
theorem bestDdercProgram_spec {w : Core} {d : Href} {best : DerProgramState}
    {dderc : DefaultDercontrol} (found : w.bestDdercProgramForDevice d = some (best, dderc)) :
    ∃ p, d ∈ w.devicesOf p ∧ w.discovered.derPrograms.get? p = some best ∧
      best.defaultDercontrol = some dderc := by
  have step : ∀ (best : Option (DerProgramState × DefaultDercontrol)),
      ∀ entry ∈ w.discovered.deviceMapping.programToDevices.entries,
      (∀ b ∈ best, ∃ p, d ∈ w.devicesOf p ∧ w.discovered.derPrograms.get? p = some b.1 ∧
        b.1.defaultDercontrol = some b.2) →
      ∀ b ∈ w.betterDefault d best entry, ∃ p, d ∈ w.devicesOf p ∧
        w.discovered.derPrograms.get? p = some b.1 ∧ b.1.defaultDercontrol = some b.2 := by
    intro best entry listed before b member
    unfold Core.betterDefault at member
    split at member
    · exact before b member
    · rename_i here
      split at member
      · exact before b member
      · rename_i ps served
        split at member
        · exact before b member
        · rename_i dderc given
          have mapped : d ∈ w.devicesOf entry.1 := by
            have stored := (Dict.mem_entries_iff _ entry.1 entry.2).mp listed
            simpa [Core.devicesOf, DeviceMapping.devices, Dict.getD, stored] using here
          split at member
          · cases member
            exact ⟨entry.1, mapped, served, given⟩
          · split at member
            · cases member
              exact ⟨entry.1, mapped, served, given⟩
            · exact before b member
  have all : ∀ b ∈ w.bestDdercProgramForDevice d, ∃ p, d ∈ w.devicesOf p ∧
      w.discovered.derPrograms.get? p = some b.1 ∧ b.1.defaultDercontrol = some b.2 := by
    unfold Core.bestDdercProgramForDevice
    exact List.foldlRecOn _ _ (by simp)
      fun best before entry listed => step best entry listed before
  exact all _ found

/-- A program's state and the default it has. -/
def Core.defaultOf (w : Core) (p : Href) : Option (DerProgramState × DefaultDercontrol) :=
  match w.discovered.derPrograms.get? p with
  | none => none
  | some ps => ps.defaultDercontrol.map fun dderc => (ps, dderc)

/-- A planned default is the best program's, without what running events hold
where it will land. -/
structure PlannedFor (w : Core) (active : List Ref) (target : DefaultTarget) : Prop where
  lfdi : w.deviceLfdi target.device = some target.lfdi
  planned : ∃ dderc, w.bestDdercProgramForDevice target.device = some (target.program, dderc) ∧
    target.effective = (w.maskedDefault active target.device target.program dderc).1
  whole : target.isPartial = false → ∃ p, w.discovered.derPrograms.get? p = some target.program ∧
    target.program.defaultDercontrol = some target.effective

theorem planDevice_defaults {w : Core} {active : List Ref} {released : Href → Finset Mode}
    {clear : Bool} {plan : FallbackPlan} {d : Href} {target : DefaultTarget}
    (member : target ∈ (w.planDevice active released clear plan d).defaults) :
    target ∈ plan.defaults ∨ PlannedFor w active target := by
  unfold Core.planDevice at member
  split at member
  · exact .inl member
  · rename_i lfdi identified
    split at member
    · split at member
      · exact .inl member
      · split at member <;> exact .inl member
    · rename_i best dderc found
      dsimp only at member
      split at member
      · rcases List.mem_append.mp member with before | added
        · exact .inl before
        · rw [List.mem_singleton.mp added]
          refine .inr ⟨identified, ⟨dderc, found, rfl⟩, fun whole => ?_⟩
          obtain ⟨p, -, served, given⟩ := bestDdercProgram_spec found
          have kept : (w.maskedDefault active d best dderc).2 = ∅ :=
            not_not.mp (of_decide_eq_false whole)
          refine ⟨p, served, given.trans (congrArg some ?_)⟩
          exact (if_pos kept).symm
      · exact .inl member

theorem planFrom_defaults {w : Core} {active : List Ref} {released : Href → Finset Mode}
    {clear : Bool} (needs : List Href) {plan : FallbackPlan}
    (before : ∀ t ∈ plan.defaults, PlannedFor w active t) :
    ∀ t ∈ (needs.foldl (w.planDevice active released clear) plan).defaults,
      PlannedFor w active t := by
  induction needs generalizing plan with
  | nil => exact before
  | cons d rest ih =>
      apply ih
      intro t listed
      rcases planDevice_defaults listed with old | new
      · exact before t old
      · exact new

theorem fallbackPlan_defaults {w : Core} {active : List Ref} {released : Href → Finset Mode}
    {clear : Bool} {needs : List Href} {target : DefaultTarget}
    (member : target ∈ (w.fallbackPlan active released clear needs).defaults) :
    PlannedFor w active target :=
  planFrom_defaults needs (fun _ listed => absurd listed List.not_mem_nil) target member

/-- What a masked default names: everything but what was taken out. -/
theorem maskedDefault_names (w : Core) (active : List Ref) (d : Href) (best : DerProgramState)
    (dderc : DefaultDercontrol) :
    getActiveModeNames (w.maskedDefault active d best dderc).1.base =
      getActiveModeNames dderc.base \ (w.maskedDefault active d best dderc).2 := by
  unfold Core.maskedDefault
  dsimp only
  split
  · rename_i none_
    rw [none_, Finset.sdiff_empty]
  · exact getActiveModeNames_without _ _

/-- Mode `m` of device `d` is provided for. -/
def FallbackPlan.Covers (plan : FallbackPlan) (d : Href) (m : Mode) : Prop :=
  d ∈ plan.clear ∨ (∃ modes, (d, modes) ∈ plan.withdraw ∧ m ∈ modes) ∨
    ∃ target ∈ plan.defaults, target.device = d ∧ m ∈ getActiveModeNames target.effective.base

/-- What a plan has grown by. -/
structure FallbackPlan.Extends (plan plan' : FallbackPlan) : Prop where
  defaults : plan.defaults ⊆ plan'.defaults
  withdraw : plan.withdraw ⊆ plan'.withdraw
  clear : plan.clear ⊆ plan'.clear

theorem FallbackPlan.Covers.extends {plan plan' : FallbackPlan} {d : Href} {m : Mode}
    (covers : plan.Covers d m) (grown : plan.Extends plan') : plan'.Covers d m := by
  rcases covers with cleared | ⟨modes, listed, member⟩ | ⟨target, listed, own, member⟩
  · exact .inl (grown.clear cleared)
  · exact .inr (.inl ⟨modes, grown.withdraw listed, member⟩)
  · exact .inr (.inr ⟨target, grown.defaults listed, own, member⟩)

/-- Every mode counted as carried by a default is named by one that is sent. -/
def FallbackPlan.Honest (plan : FallbackPlan) : Prop :=
  ∀ m ∈ plan.defaultModes, ∃ target ∈ plan.defaults, m ∈ getActiveModeNames target.effective.base

/-- The default of device `d` is not held back. -/
def Core.DefaultOpen (w : Core) (d : Href) : Prop :=
  ∀ lfdi best dderc, w.deviceLfdi d = some lfdi → w.bestDdercProgramForDevice d = some (best, dderc) →
    w.dderc.shouldApply lfdi best.href best.primacy = true

section Plan

variable {w : Core} {active : List Ref} {released : Href → Finset Mode} {clear : Bool}
  {plan : FallbackPlan} {d : Href}

theorem planDevice_extends : plan.Extends (w.planDevice active released clear plan d) := by
  unfold Core.planDevice
  split
  · exact ⟨fun _ h => h, fun _ h => h, fun _ h => h⟩
  · split
    · split
      · exact ⟨fun _ h => h, fun _ h => h, fun _ h => List.mem_append_left _ h⟩
      · split
        · exact ⟨fun _ h => h, fun _ h => List.mem_append_left _ h, fun _ h => h⟩
        · exact ⟨fun _ h => h, fun _ h => h, fun _ h => h⟩
    · dsimp only
      refine ⟨fun _ h => ?_, fun _ h => ?_, fun _ h => h⟩
      · dsimp only
        split
        · exact List.mem_append_left _ h
        · exact h
      · dsimp only
        split
        · exact h
        · exact List.mem_append_left _ h

/-- The plan provides for the modes released on a known device. -/
theorem planDevice_covers {m : Mode} (known : w.deviceLfdi d ≠ none) (open_ : w.DefaultOpen d)
    (member : m ∈ released d) : (w.planDevice active released clear plan d).Covers d m := by
  cases identity : w.deviceLfdi d with
  | none => exact absurd identity known
  | some lfdi =>
      cases found : w.bestDdercProgramForDevice d with
      | none =>
          cases clear with
          | true =>
              refine .inl ?_
              simp [Core.planDevice, identity, found]
          | false =>
              have some_ : released d ≠ ∅ := Finset.ne_empty_of_mem member
              refine .inr (.inl ⟨released d, ?_, member⟩)
              simp [Core.planDevice, identity, found, some_]
      | some pair =>
          obtain ⟨best, dderc⟩ := pair
          have applies := open_ lfdi best dderc identity found
          let masked := w.maskedDefault active d best dderc
          by_cases written : m ∈ getActiveModeNames dderc.base \ masked.2
          · -- The default names the mode, so it is sent.
            have kept : getActiveModeNames dderc.base \ masked.2 ≠ ∅ := Finset.ne_empty_of_mem written
            refine .inr (.inr ⟨⟨d, lfdi, best, w.epoch best.href, masked.1, masked.2 ≠ ∅⟩, ?_, rfl, ?_⟩)
            · simp only [Core.planDevice, identity, found, applies]
              rw [if_pos ⟨fun empty => kept empty.2, trivial⟩]
              exact List.mem_append_right _ (List.mem_singleton.mpr rfl)
            · rw [maskedDefault_names]
              exact written
          · have rest : m ∈ released d \ (getActiveModeNames dderc.base \ masked.2) :=
              Finset.mem_sdiff.mpr ⟨member, written⟩
            refine .inr (.inl ⟨_, ?_, rest⟩)
            simp only [Core.planDevice, identity, found]
            rw [if_neg (Finset.ne_empty_of_mem rest)]
            exact List.mem_append_right _ (List.mem_singleton.mpr rfl)

theorem planDevice_honest (open_ : w.DefaultOpen d) (honest : plan.Honest) :
    (w.planDevice active released clear plan d).Honest := by
  have grown : plan.Extends (w.planDevice active released clear plan d) := planDevice_extends
  have before : ∀ m ∈ plan.defaultModes,
      ∃ target ∈ (w.planDevice active released clear plan d).defaults,
        m ∈ getActiveModeNames target.effective.base := by
    intro m member
    obtain ⟨target, listed, named⟩ := honest m member
    exact ⟨target, grown.defaults listed, named⟩
  intro m member
  cases identity : w.deviceLfdi d with
  | none =>
      simp only [Core.planDevice, identity] at member
      exact before m member
  | some lfdi =>
      cases found : w.bestDdercProgramForDevice d with
      | none =>
          refine before m ?_
          simp only [Core.planDevice, identity, found] at member
          split at member
          · exact member
          · split at member <;> exact member
      | some pair =>
          obtain ⟨best, dderc⟩ := pair
          have applies := open_ lfdi best dderc identity found
          let masked := w.maskedDefault active d best dderc
          have split_ : m ∈ plan.defaultModes ∨ m ∈ getActiveModeNames dderc.base \ masked.2 := by
            simp only [Core.planDevice, identity, found] at member
            exact Finset.mem_union.mp member
          rcases split_ with old | written
          · exact before m old
          · have kept : getActiveModeNames dderc.base \ masked.2 ≠ ∅ :=
              Finset.ne_empty_of_mem written
            refine ⟨⟨d, lfdi, best, w.epoch best.href, masked.1, masked.2 ≠ ∅⟩, ?_, ?_⟩
            · simp only [Core.planDevice, identity, found, applies]
              rw [if_pos ⟨fun empty => kept empty.2, trivial⟩]
              exact List.mem_append_right _ (List.mem_singleton.mpr rfl)
            · rw [maskedDefault_names]
              exact written

/-- The whole plan: honest, and it provides for whatever was released on the
devices it is made for. -/
theorem fallbackPlan_covers {needs : List Href}
    (known : ∀ d ∈ needs, w.deviceLfdi d ≠ none) (open_ : ∀ d ∈ needs, w.DefaultOpen d) :
    (w.fallbackPlan active released clear needs).Honest ∧
      ∀ d ∈ needs, ∀ m ∈ released d, (w.fallbackPlan active released clear needs).Covers d m := by
  have each : ∀ (needs : List Href) (plan : FallbackPlan), (∀ d ∈ needs, w.deviceLfdi d ≠ none) →
      (∀ d ∈ needs, w.DefaultOpen d) → plan.Honest →
      let whole := needs.foldl (w.planDevice active released clear) plan
      plan.Extends whole ∧ whole.Honest ∧ ∀ d ∈ needs, ∀ m ∈ released d, whole.Covers d m := by
    intro needs
    induction needs with
    | nil =>
        intro plan _ _ honest
        exact ⟨⟨fun _ h => h, fun _ h => h, fun _ h => h⟩, honest, fun d member => nomatch member⟩
    | cons d rest ih =>
        intro plan known open_ honest
        have opened := open_ d List.mem_cons_self
        obtain ⟨grown, honest', covers⟩ := ih (w.planDevice active released clear plan d)
          (fun e member => known e (List.mem_cons_of_mem d member))
          (fun e member => open_ e (List.mem_cons_of_mem d member)) (planDevice_honest opened honest)
        have first : plan.Extends (w.planDevice active released clear plan d) := planDevice_extends
        refine ⟨⟨fun _ h => grown.defaults (first.defaults h), fun _ h => grown.withdraw
          (first.withdraw h), fun _ h => grown.clear (first.clear h)⟩, honest', fun e member m held => ?_⟩
        rcases List.mem_cons.mp member with rfl | later
        · exact (planDevice_covers (known e List.mem_cons_self) opened held).extends grown
        · exact covers e later m held
  obtain ⟨-, honest, covers⟩ := each needs {} known open_ (fun m member => nomatch member)
  exact ⟨honest, covers⟩

end Plan

/-- A default is planned only for the devices the plan is made for. -/
theorem fallbackPlan_devices {w : Core} {active : List Ref} {released : Href → Finset Mode}
    {clear : Bool} {needs : List Href} {target : DefaultTarget}
    (member : target ∈ (w.fallbackPlan active released clear needs).defaults) :
    target.device ∈ needs := by
  have each : ∀ target ∈ (needs.foldl (w.planDevice active released clear) {}).defaults,
      target.device ∈ needs := by
    refine List.foldlRecOn (motive := fun plan : FallbackPlan =>
      ∀ target ∈ plan.defaults, target.device ∈ needs) needs _ (fun _ member => nomatch member) ?_
    intro plan before d listed target member
    unfold Core.planDevice at member
    split at member
    · exact before target member
    · split at member
      · split at member
        · exact before target member
        · split at member <;> exact before target member
      · dsimp only at member
        split at member
        · rcases List.mem_append.mp member with old | new
          · exact before target old
          · rw [List.mem_singleton.mp new]
            exact listed
        · exact before target member
  exact each target member

/-! ### What is sent -/

/-- `w'` is `w` after the given calls: they are in the log, each made while the
registrations were those of `w`, and a default that was remembered is one of a
program whose primacy is no worse. -/
def Sent (w w' : World) (calls : List Call) : Prop :=
  ∃ dderc log, w' = { w with dderc := dderc, issued := w.issued ++ log } ∧
    log.map (·.call) = calls ∧ (∀ e ∈ log, e.at_.modes = w.modes) ∧
    ∀ key entry, dderc.applied.get? key = some entry →
      w.dderc.applied.get? key = some entry ∨
        ∀ ps, w.discovered.derPrograms.get? key.2 = some ps → ps.primacy ≤ entry.primacy

theorem Sent.refl (w : World) : Sent w w [] :=
  ⟨w.dderc, [], by simp, rfl, fun e member => (nomatch member), fun _ _ found => .inl found⟩

theorem Sent.trans {w w' w'' : World} {xs ys : List Call} (first : Sent w w' xs)
    (second : Sent w' w'' ys) : Sent w w'' (xs ++ ys) := by
  obtain ⟨dderc, log, rfl, calls, made, remembered⟩ := first
  obtain ⟨dderc', log', rfl, calls', made', remembered'⟩ := second
  refine ⟨dderc', log ++ log', by simp, by simp [calls, calls'], ?_, fun key entry found => ?_⟩
  · intro e member
    rcases List.mem_append.mp member with old | new
    · exact made e old
    · exact made' e new
  · rcases remembered' key entry found with old | new
    · exact remembered key entry old
    · exact .inr new

theorem Sent.issue (w : World) (calls : List Call) : Sent w (World.exec (.issue calls) w) calls := by
  refine ⟨w.dderc, calls.map fun call => ⟨call, w.toCore⟩, rfl, ?_, ?_, fun _ _ found => .inl found⟩
  · rw [List.map_map]
    exact List.map_id' _
  · intro e member
    obtain ⟨call, -, rfl⟩ := List.mem_map.mp member
    rfl

/-- Remembering a default with the present primacy of its program. -/
theorem Sent.record (w : World) (lfdi : Lfdi) {p : Href} (mrid : Mrid) {primacy : Nat}
    (present : ∀ ps, w.discovered.derPrograms.get? p = some ps → ps.primacy ≤ primacy) :
    Sent w (World.exec (.recordDderc lfdi p mrid primacy) w) [] := by
  refine ⟨w.dderc.recordApplication lfdi p mrid primacy, [], by simp [World.exec, Core.exec], rfl,
    fun e member => (nomatch member), fun key entry found => ?_⟩
  simp only [DdercTracker.recordApplication, Dict.get?_set] at found
  split at found
  · rename_i same
    cases found
    rw [same]
    exact .inr present
  · exact .inl found

/-- Present content of a program's state object, and the object itself. -/
theorem objectOf_present {w : Core} {ps : DerProgramState}
    (present : w.discovered.derPrograms.get? ps.href = some ps) (epoch : Nat) :
    w.objectOf epoch ps = ps := by
  unfold Core.objectOf
  split
  · rw [present]
    rfl
  · rfl

theorem eval_recordDefaults (o : Oracle ProcSig) (results : Nat → Option DispatchFailure)
    (from_ : Nat) (plans : List (DefaultTarget × List Call)) (w : World)
    (present : ∀ plan ∈ plans,
      w.discovered.derPrograms.get? plan.1.program.href = some plan.1.program) :
    ∃ w', (recordDefaults results from_ plans).eval o w = (some (), w') ∧ Sent w w' [] := by
  induction plans generalizing w from_ with
  | nil => exact ⟨w, rfl, Sent.refl w⟩
  | cons plan rest ih =>
      obtain ⟨target, calls⟩ := plan
      have here : w.discovered.derPrograms.get? target.program.href = some target.program :=
        present _ List.mem_cons_self
      have later := fun plan member => present plan (List.mem_cons_of_mem (target, calls) member)
      let recorded := World.exec (.recordDderc target.lfdi target.program.href target.effective.mrid
        (w.objectOf target.epoch target.program).primacy) w
      by_cases landed : allLanded results from_ calls.length = true ∧ target.isPartial = false
      · obtain ⟨w', ran, sent⟩ := ih (from_ + calls.length) recorded later
        refine ⟨w', ?_, Sent.trans (Sent.record w _ _ ?_) sent⟩
        · change Co.eval o ((onlyIf _ _).bind _) w = _
          rw [onlyIf, if_pos landed]
          exact ran
        · intro ps found
          rw [here] at found
          cases found
          rw [objectOf_present here]
      · obtain ⟨w', ran, sent⟩ := ih (from_ + calls.length) w later
        refine ⟨w', ?_, sent⟩
        change Co.eval o ((onlyIf _ _).bind _) w = _
        rw [onlyIf, if_neg landed]
        exact ran

namespace Core

variable (w : Core)

/-- The calls of the planned defaults. -/
def plannedCalls (r : Ref) (plan : FallbackPlan) : List Call :=
  plan.defaults.flatMap fun t =>
    w.defaultCalls (some (w.record r).mrid) t.device t.program.href t.effective

/-- The clearing calls, if there is anything to clear. -/
def plannedClears (r : Ref) (plan : FallbackPlan) : List Call :=
  if plan.clear = [] then [] else w.clearCalls r plan

/-- The registrations without those of event `r` on the devices of its program. -/
def unregistered (r : Ref) : Core :=
  { w with
    modes := (w.uniqueDevices (w.record r).programHref).foldl
      (fun t d => t.unregister d (w.record r).mrid) w.modes }

/-- The devices event `r` falls back on. -/
def fallbackNeeds (r : Ref) : List Href :=
  (w.uniqueDevices (w.record r).programHref).filter
    (w.needsFallback r w.activeEvents fun d => w.modes.released d (w.record r).mrid)

/-- The plan of the fallback of event `r`. -/
def planOf (r : Ref) (clearIfNoDderc : Bool) : FallbackPlan :=
  (w.unregistered r).fallbackPlan w.activeEvents
    (fun d => w.modes.released d (w.record r).mrid) clearIfNoDderc (w.fallbackNeeds r)

/-- Everything the fallback of event `r` sends. -/
def fallbackCalls (r : Ref) (clearIfNoDderc : Bool) : List Call :=
  let plan := w.planOf r clearIfNoDderc
  let after := w.unregistered r
  after.plannedCalls r plan ++ after.withdrawCalls r (w.uniqueDevices (w.record r).programHref) plan
    ++ after.plannedClears r plan

end Core

section Sending

variable (env : Answers) {w : World} (r : Ref)

theorem eval_dispatchDefaults {plan : FallbackPlan}
    (present : ∀ t ∈ plan.defaults, w.discovered.derPrograms.get? t.program.href = some t.program) :
    ∃ w', (dispatchDefaults r plan).eval (World.oracle env) w = (some (), w') ∧
      Sent w w' (w.plannedCalls r plan) := by
  by_cases none_ : plan.defaults = []
  · refine ⟨w, ?_, ?_⟩
    · simp [dispatchDefaults, onlyIf, none_, Co.eval]
    · simp only [Core.plannedCalls, none_, List.flatMap_nil]
      exact Sent.refl w
  · let plans := plan.defaults.map fun t =>
      (t, w.defaultCalls (some (w.record r).mrid) t.device t.program.href t.effective)
    obtain ⟨results, -, gathered⟩ := eval_gatherCalls env w (plans.flatMap Prod.snd)
    obtain ⟨w', recorded, sent⟩ := eval_recordDefaults (World.oracle env) results 0 plans
      (World.exec (.issue (plans.flatMap Prod.snd)) w) (by
        intro entry member
        obtain ⟨t, listed, rfl⟩ := List.mem_map.mp member
        exact present t listed)
    refine ⟨w', ?_, ?_⟩
    · simp only [dispatchDefaults, onlyIf]
      rw [if_pos none_]
      change Co.eval _ ((gatherCalls (plans.flatMap Prod.snd)).bind _) w = _
      rw [Co.eval_bind, gathered]
      exact recorded
    · have calls : plans.flatMap Prod.snd = w.plannedCalls r plan := List.flatMap_map ..
      rw [← calls]
      simpa using (Sent.issue w _).trans sent

theorem eval_withdrawReleased (devices : List Href) (plan : FallbackPlan) :
    ∃ w', (withdrawReleased r devices plan).eval (World.oracle env) w = (some (), w') ∧
      Sent w w' (w.withdrawCalls r devices plan) := by
  by_cases none_ : plan.withdraw = []
  · refine ⟨w, ?_, ?_⟩
    · simp [withdrawReleased, onlyIf, none_, Co.eval]
    · have nothing : w.withdrawCalls r devices plan = [] := by
        unfold Core.withdrawCalls
        dsimp only
        split <;> simp [none_, unionModes]
      rw [nothing]
      exact Sent.refl w
  · obtain ⟨results, -, gathered⟩ := eval_gatherCalls env w (w.withdrawCalls r devices plan)
    refine ⟨_, ?_, Sent.issue w _⟩
    simp only [withdrawReleased, onlyIf]
    rw [if_pos none_]
    change Co.eval _ ((gatherCalls (w.withdrawCalls r devices plan)).bind _) w = _
    rw [Co.eval_bind, gathered]
    rfl

theorem eval_clearDevices (plan : FallbackPlan) :
    ∃ w', (clearDevices r plan).eval (World.oracle env) w = (some (), w') ∧
      Sent w w' (w.plannedClears r plan) := by
  unfold Core.plannedClears
  by_cases none_ : plan.clear = []
  · refine ⟨w, ?_, ?_⟩
    · simp [clearDevices, onlyIf, none_, Co.eval]
    · rw [if_pos none_]
      exact Sent.refl w
  · obtain ⟨results, -, gathered⟩ := eval_gatherCalls env w (w.clearCalls r plan)
    refine ⟨World.exec (.issue (w.clearCalls r plan)) w, ?_, ?_⟩
    · simp only [clearDevices, onlyIf]
      rw [if_pos none_]
      change Co.eval _ ((gatherCalls (w.clearCalls r plan)).bind _) w = _
      rw [Co.eval_bind, gathered]
      rfl
    · rw [if_neg none_]
      exact Sent.issue w _

/-- The state with the event unregistered, and its history. -/
def World.unregistered (w : World) (r : Ref) : World := { w with toCore := w.toCore.unregistered r }

theorem eval_unregister (o : Oracle ProcSig) (w : World) (r : Ref) :
    (Co.forEach (w.uniqueDevices (w.record r).programHref) fun d =>
      perform (.unregister d (w.record r).mrid)).eval o w = (some (), w.unregistered r) := by
  rw [eval_forEach_perform]
  have each : ∀ (ds : List Href) (mrid : Mrid) (v : World),
      ds.foldl (fun w d => World.exec (.unregister d mrid) w) v =
        { v with modes := ds.foldl (fun t d => t.unregister d mrid) v.modes } := by
    intro ds mrid
    induction ds with
    | nil => exact fun v => rfl
    | cons d rest ih => exact fun v => ih _
  rw [each]
  rfl

/-- The fallback of `r`, alone: it unregisters the event and sends what was
planned. -/
theorem eval_fallback (clear : Bool) (named : w.discovered.Named) :
    ∃ w', (applyDdercFallback r clear).eval (World.oracle env) w = (some (), w') ∧
      Sent (w.unregistered r) w'
        (if w.fallbackNeeds r = [] then [] else w.fallbackCalls r clear) := by
  change ∃ w', Co.eval _ ((Co.forEach (w.uniqueDevices (w.record r).programHref) fun d =>
    perform (.unregister d (w.record r).mrid)).bind _) w = (some (), w') ∧ _
  rw [Co.eval_bind, eval_unregister]
  change ∃ w', Co.eval (World.oracle env) (if w.fallbackNeeds r = [] then _ else _)
    (w.unregistered r) = _ ∧ _
  by_cases none_ : w.fallbackNeeds r = []
  · rw [if_pos none_, if_pos none_]
    exact ⟨_, rfl, Sent.refl _⟩
  · rw [if_neg none_, if_neg none_]
    have present : ∀ t ∈ (w.planOf r clear).defaults,
        w.discovered.derPrograms.get? t.program.href = some t.program := by
      intro t member
      obtain ⟨dderc, found, -⟩ := (fallbackPlan_defaults member).planned
      obtain ⟨p, -, stored, -⟩ := bestDdercProgram_spec found
      have stored : w.discovered.derPrograms.get? p = some t.program := stored
      rw [named p _ stored]
      exact stored
    obtain ⟨w₁, defaults, sent⟩ := eval_dispatchDefaults env (w := w.unregistered r) r present
    obtain ⟨dderc, log, rfl, -⟩ := id sent
    obtain ⟨w₂, withdrawn, sent'⟩ := eval_withdrawReleased env r
      (w := { w.unregistered r with dderc := dderc, issued := (w.unregistered r).issued ++ log })
      (w.uniqueDevices (w.record r).programHref) (w.planOf r clear)
    obtain ⟨dderc', log', rfl, -⟩ := id sent'
    obtain ⟨w₃, cleared, sent''⟩ := eval_clearDevices env r
      (w := { w.unregistered r with
        dderc := dderc', issued := (w.unregistered r).issued ++ log ++ log' }) (w.planOf r clear)
    refine ⟨w₃, ?_, (sent.trans sent').trans sent''⟩
    change Co.eval _ ((dispatchDefaults r (w.planOf r clear)).bind fun _ =>
      (withdrawReleased r (w.uniqueDevices (w.record r).programHref) (w.planOf r clear)).bind
        fun _ => clearDevices r (w.planOf r clear)) _ = _
    rw [Co.eval_bind, defaults]
    dsimp only
    rw [Co.eval_bind, withdrawn]
    exact cleared

omit r in
theorem eval_recordInitial (o : Oracle ProcSig) (results : Nat → Option DispatchFailure) (p : Href)
    (mrid : Mrid) {ps : DerProgramState} (epoch perTarget from_ : Nat) (targets : List (Href × Lfdi))
    (w : World) (present : w.discovered.derPrograms.get? p = some ps) (own : ps.href = p) :
    ∃ w', (recordInitial results p mrid ps epoch perTarget from_ targets).eval o w = (some (), w') ∧
      Sent w w' [] := by
  induction targets generalizing w from_ with
  | nil => exact ⟨w, rfl, Sent.refl w⟩
  | cons target rest ih =>
      obtain ⟨d, lfdi⟩ := target
      let recorded := World.exec (.recordDderc lfdi p mrid (w.objectOf epoch ps).primacy) w
      by_cases landed : allLanded results from_ perTarget = true
      · obtain ⟨w', ran, sent⟩ := ih (from_ + perTarget) recorded present
        refine ⟨w', ?_, Sent.trans (Sent.record w _ _ fun ps' found => ?_) sent⟩
        · change Co.eval o ((onlyIf _ _).bind _) w = _
          rw [onlyIf, if_pos landed]
          exact ran
        · rw [present] at found
          cases found
          rw [objectOf_present (own ▸ present)]
      · obtain ⟨w', ran, sent⟩ := ih (from_ + perTarget) w present
        refine ⟨w', ?_, sent⟩
        change Co.eval o ((onlyIf _ _).bind _) w = _
        rw [onlyIf, if_neg landed]
        exact ran

omit r in
/-- The initial default, alone: it only sends defaults. -/
theorem eval_initial (p : Href) (named : w.discovered.Named) :
    ∃ w' calls, (applyInitialDderc p).eval (World.oracle env) w = (some (), w') ∧
      Sent w w' calls ∧ ∀ call ∈ calls, call.isControl = false := by
  have nothing : ∃ w' calls, ((some (), w) : Option Unit × World) = (some (), w') ∧
      Sent w w' calls ∧ ∀ call ∈ calls, call.isControl = false :=
    ⟨w, [], rfl, Sent.refl w, fun call member => absurd member List.not_mem_nil⟩
  unfold applyInitialDderc
  rw [eval_getWorld]
  cases found : w.discovered.derPrograms.get? p with
  | none => exact nothing
  | some ps =>
      dsimp only
      split
      · exact nothing
      · rename_i dderc _
        split
        · exact nothing
        · split
          · exact nothing
          · split
            · exact nothing
            · obtain ⟨results, -, gathered⟩ := eval_gatherCalls env w
                ((w.initialTargets ps p dderc).flatMap fun t => w.defaultCalls none t.1 p
                  (if getActiveModeNames dderc.base ∩ w.modesRunningIn
                      (w.reachOf p ((w.initialTargets ps p dderc).map Prod.fst)) w.activeEvents = ∅
                    then dderc else defaultWithout dderc (getActiveModeNames dderc.base ∩
                      w.modesRunningIn (w.reachOf p ((w.initialTargets ps p dderc).map Prod.fst))
                        w.activeEvents)))
              obtain ⟨w', ran, sent⟩ := eval_recordInitial (World.oracle env) results p dderc.mrid
                (w.epoch p) (((w.groupLocalLfdis p).map List.length).getD 1) 0
                (w.initialTargets ps p dderc) (World.exec (.issue _) w) found (named p ps found)
              refine ⟨w', _, ?_, by simpa using (Sent.issue w _).trans sent, ?_⟩
              · rw [Co.bind_eq, Co.eval_bind, gathered]
                exact ran
              · intro call member
                obtain ⟨target, -, made⟩ := List.mem_flatMap.mp member
                exact defaultCalls_isControl w.toCore made

end Sending

/-! ### Where it lands -/

/-- Every device is known and is written through the same targets by each of its
programs. -/
structure Core.Site (w : Core) : Prop where
  known : ∀ p, ∀ d ∈ w.devicesOf p, w.deviceLfdi d ≠ none
  agree : ∀ p q d, d ∈ w.devicesOf p → d ∈ w.devicesOf q → w.reachOf p [d] = w.reachOf q [d]
  named : w.discovered.Named

theorem mem_uniqueDevices {w : Core} {p d : Href} :
    d ∈ w.uniqueDevices p ↔ d ∈ w.devicesOf p := List.mem_eraseDups

theorem modesOf_unregisterAll (t : ActiveModeTracker) (ds : List Href) (mrid : Mrid) (e : Href)
    (x : Mrid) :
    (ds.foldl (fun t d => t.unregister d mrid) t).modesOf e x =
      if e ∈ ds ∧ x = mrid then ∅ else t.modesOf e x := by
  induction ds generalizing t with
  | nil => simp
  | cons d rest ih =>
      rw [List.foldl_cons, ih, ActiveModeTracker.modesOf_unregister]
      by_cases event : x = mrid <;> by_cases device : e = d <;> by_cases later : e ∈ rest <;>
        simp [event, device, later]

theorem modesOf_unregistered (w : Core) (r : Ref) (e : Href) (x : Mrid) :
    (w.unregistered r).modes.modesOf e x =
      if e ∈ w.devicesOf (w.record r).programHref ∧ x = (w.record r).mrid then ∅
      else w.modes.modesOf e x := by
  unfold Core.unregistered
  rw [modesOf_unregisterAll]
  simp only [mem_uniqueDevices]

theorem Mode.isTracked_of_isReleasable {m : Mode} (h : m.isReleasable = true) :
    m.isTracked = true := by
  simp only [Mode.isReleasable, Bool.and_eq_true] at h
  exact h.1

/-- What the end of an event answers for can be withdrawn. -/
theorem Mode.isWithdrawable_of_isReleasable {m : Mode} (h : m.isReleasable = true) :
    m.isWithdrawable = true := by
  have tracked := Mode.hasElement_of_isTracked (Mode.isTracked_of_isReleasable h)
  simp only [Mode.isReleasable, Bool.and_eq_true] at h
  simp [Mode.isWithdrawable, tracked, h.2]

section Writes

variable {w : Core} {r : Ref} {clear : Bool} {d : Href} {m : Mode} {t : Target}

/-- A default sent for a device of the program writes the modes it names. -/
theorem plannedCalls_write (site : w.Site) {target : DefaultTarget}
    (listed : target ∈ (w.planOf r clear).defaults)
    (named : m ∈ getActiveModeNames target.effective.base)
    (lands : t ∈ w.reachOf (w.record r).programHref [target.device]) :
    ∃ call ∈ (w.unregistered r).plannedCalls r (w.planOf r clear), (call.writes t m).isSome = true := by
  obtain ⟨dderc, found, -⟩ := (fallbackPlan_defaults listed).planned
  obtain ⟨p, mapped, stored, -⟩ := bestDdercProgram_spec found
  have stored : w.discovered.derPrograms.get? p = some target.program := stored
  have own : target.program.href = p := site.named p _ stored
  have device : target.device ∈ w.devicesOf (w.record r).programHref :=
    mem_uniqueDevices.mp (List.mem_of_mem_filter (fallbackPlan_devices listed))
  have lands : t ∈ (w.unregistered r).reachOf target.program.href [target.device] := by
    rw [own]
    exact site.agree _ _ _ device mapped ▸ lands
  refine ⟨.defaultControl t target.effective (some ((w.unregistered r).record r).mrid), ?_, ?_⟩
  · exact List.mem_flatMap.mpr ⟨target, listed, List.mem_map.mpr ⟨t, lands, rfl⟩⟩
  · simp [Call.writes, getActiveModeNames_subset_translated _ named]

theorem groupLocalLfdis_unregistered :
    (w.unregistered r).groupLocalLfdis ((w.unregistered r).record r).programHref =
      w.groupLocalLfdis (w.record r).programHref := rfl

/-- Clearing a device disables every mode of it. -/
theorem plannedClears_write (tracked : m.isTracked = true) (listed : d ∈ (w.planOf r clear).clear)
    (lands : t ∈ w.reachOf (w.record r).programHref [d]) :
    ∃ call ∈ (w.unregistered r).plannedClears r (w.planOf r clear),
      (call.writes t m).isSome = true := by
  have some_ : (w.planOf r clear).clear ≠ [] := List.ne_nil_of_mem listed
  refine ⟨.clearControl t (w.record r).mrid, ?_, ?_⟩
  · unfold Core.plannedClears Core.clearCalls
    rw [if_neg some_]
    unfold Core.reachOf at lands
    dsimp only
    rw [groupLocalLfdis_unregistered]
    cases group : w.groupLocalLfdis (w.record r).programHref with
    | none =>
        rw [group] at lands
        obtain ⟨e, member, rfl⟩ := List.mem_map.mp lands
        rw [List.mem_singleton.mp member]
        exact List.mem_map.mpr ⟨d, List.mem_eraseDups.mpr listed, rfl⟩
    | some lfdis =>
        rw [group] at lands
        obtain ⟨l, member, rfl⟩ := List.mem_map.mp lands
        exact List.mem_map.mpr ⟨l, List.mem_eraseDups.mpr member, rfl⟩
  · simp [Call.writes, Mode.hasElement_of_isTracked tracked]

/-- Withdrawing a mode disables it, unless a default brings it back or another
event holds it on a device behind the same targets. -/
theorem withdrawCalls_write (site : w.Site) (honest : (w.planOf r clear).Honest)
    (releasable : m.isReleasable = true) {modes : Finset Mode}
    (listed : (d, modes) ∈ (w.planOf r clear).withdraw) (member : m ∈ modes)
    (lands : t ∈ w.reachOf (w.record r).programHref [d]) :
    (∃ call ∈ (w.unregistered r).plannedCalls r (w.planOf r clear),
      (call.writes t m).isSome = true) ∨
    (∃ call ∈ (w.unregistered r).withdrawCalls r (w.uniqueDevices (w.record r).programHref)
      (w.planOf r clear), (call.writes t m).isSome = true) ∨
    ∃ e ∈ w.devicesOf (w.record r).programHref, t ∈ w.reachOf (w.record r).programHref [e] ∧
      ∃ x, x ≠ (w.record r).mrid ∧ m ∈ w.modes.modesOf e x := by
  have withdrawable := Mode.isWithdrawable_of_isReleasable releasable
  cases group : w.groupLocalLfdis (w.record r).programHref with
  | none =>
      refine .inr (.inl ⟨.disableModes t modes (w.record r).mrid, ?_, ?_⟩)
      · have own : t = .href d := by
          unfold Core.reachOf at lands
          rw [group] at lands
          simpa using lands
        rw [own]
        unfold Core.withdrawCalls
        dsimp only
        rw [groupLocalLfdis_unregistered, group]
        exact List.mem_map.mpr ⟨(d, modes), listed, rfl⟩
      · simp [Call.writes, member, withdrawable]
  | some lfdis =>
      -- Every device of the program stands for the same local devices.
      have everywhere : ∀ e, w.reachOf (w.record r).programHref [e] = lfdis.map .lfdi := by
        intro e
        unfold Core.reachOf
        rw [group]
      rw [everywhere] at lands
      by_cases brought : m ∈ (w.planOf r clear).defaultModes
      · obtain ⟨target, planned, named⟩ := honest m brought
        exact .inl (plannedCalls_write site planned named (by rw [everywhere]; exact lands))
      · by_cases held : ∃ e ∈ w.devicesOf (w.record r).programHref, ∃ x, x ≠ (w.record r).mrid ∧
            m ∈ w.modes.modesOf e x
        · obtain ⟨e, mapped, other⟩ := held
          exact .inr (.inr ⟨e, mapped, by rw [everywhere]; exact lands, other⟩)
        · obtain ⟨l, local_, rfl⟩ := List.mem_map.mp lands
          let gone := unionModes ((w.planOf r clear).withdraw.map Prod.snd) \
            ((w.planOf r clear).defaultModes ∪ unionModes
              ((w.uniqueDevices (w.record r).programHref).map fun e =>
                (w.unregistered r).modes.covered e (w.record r).mrid))
          have dropped : m ∈ gone := by
            refine Finset.mem_sdiff.mpr ⟨?_, fun needed => ?_⟩
            · exact mem_unionModes.mpr ⟨modes, List.mem_map.mpr ⟨_, listed, rfl⟩, member⟩
            · rcases Finset.mem_union.mp needed with kept | covered
              · exact brought kept
              · obtain ⟨others, from_, inside⟩ := mem_unionModes.mp covered
                obtain ⟨e, mapped, rfl⟩ := List.mem_map.mp from_
                obtain ⟨x, other, registered⟩ := ActiveModeTracker.mem_covered.mp inside
                rw [modesOf_unregistered, if_neg fun both => other both.2] at registered
                exact held ⟨e, mem_uniqueDevices.mp mapped, x, other, registered⟩
          refine .inr (.inl ⟨.disableModes (.lfdi l) gone (w.record r).mrid, ?_, ?_⟩)
          · unfold Core.withdrawCalls
            dsimp only
            rw [groupLocalLfdis_unregistered, group]
            change _ ∈ (if gone = ∅ then _ else _)
            rw [if_neg (Finset.ne_empty_of_mem dropped)]
            exact List.mem_map.mpr ⟨l, List.mem_eraseDups.mpr local_, rfl⟩
          · simp [Call.writes, dropped, withdrawable]

/-- The fallback writes over every mode it released on a device it was not to
leave to others, except where another event holds the mode behind the same
targets. -/
theorem fallback_writes (site : w.Site)
    (open_ : ∀ e ∈ w.devicesOf (w.record r).programHref, w.DefaultOpen e)
    (mapped : d ∈ w.devicesOf (w.record r).programHref)
    (released : m ∈ w.modes.released d (w.record r).mrid)
    (kept : w.leftToOthers r w.activeEvents d = false) (releasable : m.isReleasable = true)
    (lands : t ∈ w.reachOf (w.record r).programHref [d]) :
    (w.fallbackNeeds r ≠ [] ∧ ∃ call ∈ w.fallbackCalls r clear, (call.writes t m).isSome = true) ∨
    ∃ e ∈ w.devicesOf (w.record r).programHref, t ∈ w.reachOf (w.record r).programHref [e] ∧
      ∃ x, x ≠ (w.record r).mrid ∧ m ∈ w.modes.modesOf e x := by
  have needed : d ∈ w.fallbackNeeds r := by
    refine List.mem_filter.mpr ⟨mem_uniqueDevices.mpr mapped, ?_⟩
    simp [Core.needsFallback, kept, Finset.ne_empty_of_mem released]
  have some_ : w.fallbackNeeds r ≠ [] := List.ne_nil_of_mem needed
  have inside : ∀ e ∈ w.fallbackNeeds r, e ∈ w.devicesOf (w.record r).programHref :=
    fun e member => mem_uniqueDevices.mp (List.mem_of_mem_filter member)
  have plan : (w.planOf r clear).Honest ∧ ∀ e ∈ w.fallbackNeeds r,
      ∀ m ∈ w.modes.released e (w.record r).mrid, (w.planOf r clear).Covers e m :=
    fallbackPlan_covers (w := w.unregistered r) (fun e member => site.known _ e (inside e member))
      fun e member => open_ e (inside e member)
  obtain ⟨honest, covers⟩ := plan
  rcases covers d needed m released with cleared | ⟨modes, listed, member⟩ | ⟨target, listed, own, named⟩
  · obtain ⟨call, made, writes⟩ :=
      plannedClears_write (Mode.isTracked_of_isReleasable releasable) cleared lands
    exact .inl ⟨some_, call, List.mem_append_right _ made, writes⟩
  · rcases withdrawCalls_write site honest releasable listed member lands with
      ⟨call, made, writes⟩ | ⟨call, made, writes⟩ | held
    · exact .inl ⟨some_, call, List.mem_append_left _ (List.mem_append_left _ made), writes⟩
    · exact .inl ⟨some_, call, List.mem_append_left _ (List.mem_append_right _ made), writes⟩
    · exact .inr held
  · obtain ⟨call, made, writes⟩ := plannedCalls_write site listed named (own.symm ▸ lands)
    exact .inl ⟨some_, call, List.mem_append_left _ (List.mem_append_left _ made), writes⟩

end Writes

end Py20305
