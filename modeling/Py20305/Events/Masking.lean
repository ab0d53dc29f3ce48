import Py20305.Events.Fallback

/-!
A default is sent without the modes that running events hold.

Every dispatcher call is logged with the state it was made in, so "at the moment
it is issued" is a property of log entries. `default_spares_running`: in every
run, a default that was issued while each running event was registered only
where its program still is names no mode such an event is registered for on
anything the call reaches. The decision and the call are one atomic step, so no
interleaving comes between them.

`Core.Accounted` is the condition. It fails when the device mapping takes a
device from a program whose event is running there: `_modes_running_in` asks the
tracker only about the program's present devices.
-/

namespace Py20305

open Coroutine Co

/-! ### What a default may name -/

/-- A call to `t` reaches device `d` as event `r` is registered there: `d`
itself, or a local device of the group of the event's program. -/
def Core.reaches (w : Core) (r : Ref) (d : Href) (t : Target) : Prop :=
  t = .href d ∨ ∃ lfdis, w.groupLocalLfdis (w.record r).programHref = some lfdis ∧
    ∃ l ∈ lfdis, t = .lfdi l

/-- The program whose default device `d` may get: one it is mapped to, or the
best one for it. -/
def Core.mayWrite (w : Core) (d p : Href) : Prop :=
  d ∈ w.devicesOf p ∨ ∃ best dderc, w.bestDdercProgramForDevice d = some (best, dderc) ∧
    best.href = p

/-- Each running event is registered only on present devices of its program,
and a device of a grouped program is written through groups only. -/
structure Core.Accounted (w : Core) : Prop where
  mapped : ∀ r ∈ w.activeEvents, ∀ d, w.modes.modesOf d (w.record r).mrid ≠ ∅ →
    d ∈ w.devicesOf (w.record r).programHref
  grouped : ∀ r ∈ w.activeEvents, ∀ d, w.modes.modesOf d (w.record r).mrid ≠ ∅ →
    (w.groupLocalLfdis (w.record r).programHref).isSome = true →
      ∀ p, w.mayWrite d p → (w.groupLocalLfdis p).isSome = true

/-- A default written to `t` names nothing a running event holds there. -/
def Core.Spares (w : Core) (t : Target) (dderc : DefaultDercontrol) : Prop :=
  ∀ r ∈ w.activeEvents, ∀ d, w.reaches r d t →
    Disjoint (w.modes.modesOf d (w.record r).mrid) (getActiveModeNames dderc.base)

/-- A logged call spares the running events, if they were accounted for. -/
def Issued.Sparing (e : Issued) : Prop :=
  ∀ t dderc cause, e.call = .defaultControl t dderc cause → e.at_.Accounted → e.at_.Spares t dderc

/-! ### The mask -/

section Mask

variable {w : Core} {p : Href} {ds : List Href} {t : Target} {r : Ref} {d : Href}

theorem mem_reachOf_href (member : Target.href d ∈ w.reachOf p ds) :
    w.groupLocalLfdis p = none ∧ d ∈ ds := by
  unfold Core.reachOf at member
  split at member
  · rename_i lfdis _
    obtain ⟨l, -, same⟩ := List.mem_map.mp member
    cases same
  · rename_i ungrouped
    obtain ⟨e, listed, same⟩ := List.mem_map.mp member
    cases same
    exact ⟨ungrouped, listed⟩

/-- A group is reached whatever device a write was decided for. -/
theorem mem_reachOf_mono {es : List Href} (sub : ds ⊆ es) (member : t ∈ w.reachOf p ds) :
    t ∈ w.reachOf p es := by
  unfold Core.reachOf at member ⊢
  split at member
  · exact member
  · obtain ⟨e, listed, rfl⟩ := List.mem_map.mp member
    exact List.mem_map.mpr ⟨e, sub listed, rfl⟩

/-- What a running event holds where a write lands is found by
`_modes_running_in`. -/
theorem subset_modesRunningIn {reach : List Target} (accounted : w.Accounted)
    (active : r ∈ w.activeEvents) (touched : w.reaches r d t) (listed : t ∈ reach)
    (open_ : ∀ e, t = .href e →
      ∃ q, w.groupLocalLfdis q = none ∧ w.mayWrite e q) :
    w.modes.modesOf d (w.record r).mrid ⊆ w.modesRunningIn reach w.activeEvents := by
  intro m held
  have some_ : w.modes.modesOf d (w.record r).mrid ≠ ∅ := Finset.ne_empty_of_mem held
  have present := accounted.mapped r active d some_
  unfold Core.modesRunningIn
  rw [mem_unionModes]
  refine ⟨w.modesRunningOf reach r, List.mem_map.mpr ⟨r, active, rfl⟩, ?_⟩
  unfold Core.modesRunningOf
  rcases touched with rfl | ⟨lfdis, group, l, member, rfl⟩
  · -- The write names the device itself, so the event's program has no group.
    obtain ⟨q, ungrouped, writes⟩ := open_ d rfl
    have alone : w.groupLocalLfdis (w.record r).programHref = none := by
      cases own : w.groupLocalLfdis (w.record r).programHref with
      | none => rfl
      | some lfdis =>
          have := accounted.grouped r active d some_ (by rw [own]; rfl) q writes
          rw [ungrouped] at this
          cases this
    have meets : (w.reachOf (w.record r).programHref
        (w.devicesOf (w.record r).programHref)).any (· ∈ reach) = true := by
      refine List.any_eq_true.mpr ⟨.href d, ?_, by simpa using listed⟩
      unfold Core.reachOf
      rw [alone]
      exact List.mem_map.mpr ⟨d, present, rfl⟩
    simp only [meets, if_true, mem_unionModes]
    refine ⟨_, List.mem_map.mpr ⟨d, List.mem_filter.mpr ⟨present, ?_⟩, rfl⟩, held⟩
    simp [listed]
  · have meets : (w.reachOf (w.record r).programHref
        (w.devicesOf (w.record r).programHref)).any (· ∈ reach) = true := by
      refine List.any_eq_true.mpr ⟨.lfdi l, ?_, by simpa using listed⟩
      unfold Core.reachOf
      rw [group]
      exact List.mem_map.mpr ⟨l, member, rfl⟩
    simp only [meets, if_true, mem_unionModes]
    refine ⟨_, List.mem_map.mpr ⟨d, List.mem_filter.mpr ⟨present, ?_⟩, rfl⟩, held⟩
    simp [group]

/-- A default without the modes running events hold in a reach spares them on
every target of it. -/
theorem spares_of_masked {reach : List Target} {dderc : DefaultDercontrol} {taken : Finset Mode}
    (accounted : w.Accounted) (listed : t ∈ reach)
    (taken_eq : taken = getActiveModeNames dderc.base ∩ w.modesRunningIn reach w.activeEvents)
    (open_ : ∀ e, t = .href e → ∃ q, w.groupLocalLfdis q = none ∧ w.mayWrite e q) :
    w.Spares t (if taken = ∅ then dderc else defaultWithout dderc taken) := by
  intro r active d touched
  have within := subset_modesRunningIn accounted active touched listed open_
  rw [Finset.disjoint_left]
  intro m held named
  have running := within held
  split at named
  · rename_i none_
    have : m ∈ taken := taken_eq ▸ Finset.mem_inter.mpr ⟨named, running⟩
    rw [none_] at this
    simp at this
  · rw [show (defaultWithout dderc taken).base = dderc.base.without taken from rfl,
      getActiveModeNames_without] at named
    obtain ⟨carried, kept⟩ := Finset.mem_sdiff.mp named
    exact kept (taken_eq ▸ Finset.mem_inter.mpr ⟨carried, running⟩)

end Mask

/-! ### What the two paths send -/

/-- The calls of a planned default spare the running events. -/
theorem plannedCalls_sparing {w : Core} {target : DefaultTarget}
    (planned : PlannedFor w w.activeEvents target) (cause : Option Mrid) :
    ∀ call ∈ w.defaultCalls cause target.device target.program.href target.effective,
      Issued.Sparing ⟨call, w⟩ := by
  intro call member
  obtain ⟨t, listed, rfl⟩ := List.mem_map.mp member
  rintro _ _ _ ⟨⟩ accounted
  obtain ⟨dderc, best, effective⟩ := planned.planned
  rw [effective]
  refine spares_of_masked accounted listed rfl ?_
  rintro e rfl
  obtain ⟨ungrouped, same⟩ := mem_reachOf_href listed
  rw [List.mem_singleton.mp same]
  exact ⟨_, ungrouped, .inr ⟨_, dderc, best, rfl⟩⟩

theorem mem_initialTargets {w : Core} {ps : DerProgramState} {p : Href}
    {dderc : DefaultDercontrol} {t : Href × Lfdi} (member : t ∈ w.initialTargets ps p dderc) :
    t.1 ∈ w.devicesOf p := by
  obtain ⟨d, listed, found⟩ := List.mem_filterMap.mp member
  have same : d = t.1 := by
    split at found
    · cases found
    · split at found
      · cases found
      · split at found <;> cases found
        rfl
  rw [← same]
  exact List.mem_eraseDups.mp listed

/-- The calls of an initial default spare the running events. -/
theorem initialCalls_sparing {w : Core} {ps : DerProgramState} {p : Href}
    {dderc effective : DefaultDercontrol} {taken : Finset Mode}
    (taken_eq : taken = getActiveModeNames dderc.base ∩
      w.modesRunningIn (w.reachOf p ((w.initialTargets ps p dderc).map Prod.fst)) w.activeEvents)
    (effective_eq : effective = if taken = ∅ then dderc else defaultWithout dderc taken) :
    ∀ call ∈ (w.initialTargets ps p dderc).flatMap fun t => w.defaultCalls none t.1 p effective,
      Issued.Sparing ⟨call, w⟩ := by
  intro call member
  obtain ⟨target, chosen, made⟩ := List.mem_flatMap.mp member
  obtain ⟨t, listed, rfl⟩ := List.mem_map.mp made
  rintro _ _ _ ⟨⟩ accounted
  rw [effective_eq]
  have inside : [target.1] ⊆ (w.initialTargets ps p dderc).map Prod.fst := by
    intro d single
    rw [List.mem_singleton.mp single]
    exact List.mem_map.mpr ⟨target, chosen, rfl⟩
  refine spares_of_masked accounted (mem_reachOf_mono inside listed) taken_eq ?_
  rintro e rfl
  obtain ⟨ungrouped, same⟩ := mem_reachOf_href listed
  rw [List.mem_singleton.mp same]
  exact ⟨p, ungrouped, .inl (mem_initialTargets chosen)⟩

/-! ### Every run -/

/-- Tasks may do anything to each other, and add only sparing calls to the
log. -/
def sparingLog : RelyGuarantee processor where
  rely := fun _ _ _ => True
  guar := fun _ w w' => ∀ e ∈ w'.issued, e ∈ w.issued ∨ e.Sparing
  inv := fun _ => True
  ok := fun _ _ _ => True
  rely_trans := fun _ _ => trivial
  rely_refl := fun _ => trivial
  guar_refl := fun e member => .inl member
  guar_trans := by
    intro p w w' w'' first second e member
    rcases second e member with before | sparing
    · exact first e before
    · exact .inr sparing
  interfere := fun _ _ _ _ => ⟨trivial, fun _ _ => trivial⟩
  external := fun _ _ _ => ⟨trivial, fun _ => trivial⟩

/-- A coroutine that adds only sparing calls, wherever it starts. -/
def AddsSparing {α : Type} (m : Proc α) : Prop :=
  ∀ p w, sparingLog.Holds p (fun _ _ => True) m w

theorem reply_issued {w w' : World} {p : Pid} {r : Request} {a : r.Answer}
    (replied : w.reply p r a = some w') : w'.issued = w.issued := by
  obtain ⟨-, _, _, rfl⟩ := reply_spec replied
  rfl

/-- Making calls that spare the running events. -/
theorem addsSparing_issue {p : Pid} {w : World} {calls : List Call}
    (sparing : ∀ call ∈ calls, Issued.Sparing ⟨call, w.toCore⟩) :
    sparingLog.guar p w (World.exec (.issue calls) w) := by
  intro e member
  rcases List.mem_append.mp member with before | added
  · exact .inl before
  · obtain ⟨call, made, rfl⟩ := List.mem_map.mp added
    exact .inr (sparing call made)

/-- Only a default can fail to spare anybody. -/
theorem sparing_of_not_default {e : Issued}
    (other : ∀ t dderc cause, e.call ≠ .defaultControl t dderc cause) : e.Sparing :=
  fun t dderc cause same => absurd same (other t dderc cause)

/-- A gather of calls that spare the running events in the state it is made
in. -/
theorem addsSparing_gather {p : Pid} {w : World} {calls : List Call}
    (sparing : ∀ call ∈ calls, Issued.Sparing ⟨call, w.toCore⟩) :
    sparingLog.Holds p (fun _ _ => True) (gatherCalls calls) w := by
  refine ⟨addsSparing_issue sparing, ?_⟩
  change sparingLog.Holds p _ (if calls = [] then _ else _) _
  split
  · trivial
  · intro w' _ _ a w'' replied
    have same : w''.issued = w'.issued := reply_issued (r := .gather calls) replied
    refine ⟨fun e member => .inl ?_, trivial⟩
    rwa [same] at member

theorem addsSparing_quiet {α : Type} {m : Proc α} (within : Within m silent anyAwait True) :
    AddsSparing m := by
  intro p w
  refine RelyGuarantee.holds_of_only ?_ ?_ within
  · intro c t listed e member
    refine .inl ?_
    cases c with
    | issue calls => exact absurd listed (issue_effect_notMem calls (by decide) (by decide))
    | _ => exact member
  · intro r a t t' _ replied e member
    have same : t'.issued = t.issued := reply_issued replied
    rw [same] at member
    exact .inl member

theorem withdrawCalls_sparing (w : Core) (r : Ref) (devices : List Href) (plan : FallbackPlan) :
    ∀ call ∈ w.withdrawCalls r devices plan, Issued.Sparing ⟨call, w⟩ := by
  intro call member
  apply sparing_of_not_default
  rintro t dderc cause rfl
  unfold Core.withdrawCalls at member
  dsimp only at member
  split at member
  · simp at member
  · split at member <;> simp at member

theorem clearCalls_sparing (w : Core) (r : Ref) (plan : FallbackPlan) :
    ∀ call ∈ w.clearCalls r plan, Issued.Sparing ⟨call, w⟩ := by
  intro call member
  apply sparing_of_not_default
  rintro t dderc cause rfl
  unfold Core.clearCalls at member
  dsimp only at member
  split at member <;> simp at member

theorem addsSparing_withdraw (r : Ref) (devices : List Href) (plan : FallbackPlan) :
    AddsSparing (withdrawReleased r devices plan) := by
  intro p w
  unfold withdrawReleased onlyIf
  split
  · refine holds_get (RelyGuarantee.holds_seq (addsSparing_gather ?_) fun _ _ => trivial)
    exact withdrawCalls_sparing _ _ _ _
  · trivial

theorem addsSparing_clear (r : Ref) (plan : FallbackPlan) : AddsSparing (clearDevices r plan) := by
  intro p w
  unfold clearDevices onlyIf
  split
  · refine holds_get (RelyGuarantee.holds_seq (addsSparing_gather ?_) fun _ _ => trivial)
    exact clearCalls_sparing _ _ _
  · trivial

theorem addsSparing_fallback (r : Ref) (clear : Bool) : AddsSparing (applyDdercFallback r clear) := by
  intro p w
  -- Unregistering leaves the store, and with it the running events, alone.
  refine holds_get (RelyGuarantee.holds_bind ((RelyGuarantee.holds_forEach
    (fun _ (w' : World) => w'.store = w.store) ?_ rfl).mono ?_))
  · intro d rest w' same
    exact ⟨fun e member => .inl member, same⟩
  · intro _ w' same
    have active : w.activeEvents = w'.activeEvents := by
      unfold Core.activeEvents Core.record
      rw [same]
    dsimp only
    split
    · trivial
    · rw [active]
      refine holds_get ?_
      refine RelyGuarantee.holds_seq (m := dispatchDefaults r _) ?_ ?_
      · unfold dispatchDefaults onlyIf
        split
        · refine holds_get (RelyGuarantee.holds_seq (addsSparing_gather ?_) ?_)
          · intro call member
            obtain ⟨entry, listed, made⟩ := List.mem_flatMap.mp member
            obtain ⟨target, planned, rfl⟩ := List.mem_map.mp listed
            exact plannedCalls_sparing (fallbackPlan_defaults planned) _ call made
          · intro results t
            exact addsSparing_quiet
              ((recordDefaults_within _ _ _).mono (by decide) (by decide)) p t
        · trivial
      · intro _ t
        refine RelyGuarantee.holds_seq (m := withdrawReleased r _ _) ?_ ?_
        · exact addsSparing_withdraw r _ _ p t
        · exact fun _ t => addsSparing_clear r _ p t

theorem addsSparing_initial (program : Href) : AddsSparing (applyInitialDderc program) := by
  intro p w
  refine holds_get ?_
  split
  · trivial
  · split
    · trivial
    · split
      · trivial
      · dsimp only
        split
        · trivial
        · split
          · trivial
          · refine RelyGuarantee.holds_seq (addsSparing_gather (initialCalls_sparing rfl rfl)) ?_
            intro results t
            exact addsSparing_quiet
              ((recordInitial_within _ _ _ _ _ _ _ _).mono (by decide) (by decide)) p t

/-- The calls that put a control on a device. -/
theorem control_sparing (w : Core) (t : Target) (mrid : Mrid) (base : DercontrolBase) :
    Issued.Sparing ⟨.control t mrid base, w⟩ :=
  sparing_of_not_default fun _ _ _ same => nomatch same

theorem addsSparing_respondOutcome (r : Ref) (d : Href) (failure : Option DispatchFailure) :
    AddsSparing (respondOutcome r d failure) :=
  addsSparing_quiet ((respondOutcome_within r d failure).mono (by decide) (by decide))

theorem addsSparing_child (r : Ref) (d : Href) : AddsSparing (dispatchAndReport r d) := by
  intro p w
  refine holds_get (holds_perform (addsSparing_issue ?_) (holds_waitFor ?_))
  · intro call member
    rw [List.mem_singleton.mp member]
    exact control_sparing _ _ _ _
  · intro w' _ _ failure w'' replied
    have same : w''.issued = w'.issued := reply_issued (r := .dispatch _) replied
    refine ⟨fun e member => .inl ?_, ?_⟩
    · rwa [same] at member
    · refine RelyGuarantee.holds_seq (addsSparing_respondOutcome r d failure p w'') ?_
      intro _ t
      exact ⟨fun e member => .inl member, trivial⟩

theorem addsSparing_apply (r : Ref) : AddsSparing (applyAndRespond r) := by
  intro p w
  refine holds_get ?_
  dsimp only
  split
  · exact addsSparing_quiet
      ((postResponse_within _ _ _ _).mono (by decide) (by decide)) p w
  · refine RelyGuarantee.holds_seq (m := Co.forEach _ _) ?_ fun _ t => ?_
    · refine addsSparing_quiet (Within.forEach fun d _ => Within.perform ?_) p w
      simp [Cmd.effect]
    · split
      · refine holds_get (RelyGuarantee.holds_seq (addsSparing_gather ?_) fun results t' => ?_)
        · intro call member
          obtain ⟨l, -, rfl⟩ := List.mem_map.mp member
          exact control_sparing _ _ _ _
        · refine addsSparing_quiet (Within.forEach fun d _ => ?_) p t'
          exact (respondOutcome_within r d _).mono (by decide) (by decide)
      · refine addsSparing_quiet (Within.bind (Within.perform ?_) fun _ => Within.waitFor ?_) p t
        · simp [Cmd.effect]
        · decide

theorem addsSparing_respond (code : ResponseCode) (derc : Dercontrol) (lfdi : Lfdi) :
    AddsSparing (respondFor derc code lfdi) :=
  addsSparing_quiet ((respondFor_within _ _ _).mono (by decide) (by decide))

theorem addsSparing_composes : Composes silent AddsSparing where
  carries := by decide
  bind := fun first rest p w => RelyGuarantee.holds_seq (first p w) fun a t => rest a p t
  get := fun rest p w => rest w p w
  quiet := fun within => addsSparing_quiet (within.widen (List.Subset.refl _) (by decide))
  respond := fun _ _ => addsSparing_respond _
  fallback := addsSparing_fallback
  initial := addsSparing_initial

theorem sparingLog_jobs : sparingLog.JobsSafe := by
  intro p j w w' _ begun
  refine ⟨fun e member => .inl ?_, ?_⟩
  rotate_left
  · have superseding := addsSparing_composes.supersedeSilent (by decide)
    refine addsSparing_composes.body (by decide) (fun r => ?_) (addsSparing_respond _)
      (fun prunes => addsSparing_composes.quiet (Within.perform (by rw [prunes]; decide)))
      (fun r => ?_)
      (fun r d _ => addsSparing_child r d) p w'
    · exact addsSparing_composes.handleLateDiscovery superseding (addsSparing_apply r)
    · exact addsSparing_composes.onActivation
        (fun mrid => addsSparing_composes.transition (by decide) mrid .active) superseding
        (addsSparing_apply r)
  obtain ⟨core, -, rfl⟩ := Option.map_eq_some_iff.mp begun
  exact member

/-- In every run, whatever interleaves with it: a default issued in a state in
which the running events are accounted for names no mode a running event that
was not opted out is registered for on anything the call reaches. -/
theorem default_spares_running {w : Core} {c : Config ProcSig}
    (run : processor.Run (fun _ _ _ => True) (start w) c) :
    ∀ e ∈ c.state.issued, ∀ t dderc cause, e.call = .defaultControl t dderc cause →
      e.at_.Accounted → e.at_.Spares t dderc := by
  intro e member
  have related := RelyGuarantee.related_of_run sparingLog_jobs
    (R := fun w w' => ∀ e ∈ w'.issued, e ∈ w.issued ∨ e.Sparing) (fun _ _ member => .inl member)
    (sparingLog.guar_trans (p := 0)) id ?_ (start_safe trivial) (start_parked w) run
  · rcases related e member with logged | sparing
    · cases logged
    · exact sparing
  · rintro ext w w' ⟨⟩ e member
    exact .inl member

/-! ### Two events on one device -/

/-- A default that sets two modes. -/
def bothModes : DefaultDercontrol where
  mrid := 9
  base := ⟨{.opModFixedW, .opModMaxLimW}⟩

/-- One program with that default and two events, one of which ends first. -/
def maskedCore : Core :=
  plainCore
    [{ plainProgram "/derp/1" 1
        [plainControl 1 0 1000 .opModFixedW, plainControl 2 0 10 .opModMaxLimW] with
        defaultDercontrol := some bothModes }]
    [("/derp/1", "/edev/1")]

/-- Both events start, and the second one ends at time 10. -/
def maskedRun : List (Label processor) :=
  let go := fun pid => Label.resume pid Request.success
  [.start 1 (.processControls "/derp/1" 0), go 1, .start 2 (.dispatchAndReport 0 "/edev/1"), go 2,
    go 2, go 1, go 1, .start 4 (.dispatchAndReport 1 "/edev/1"), go 4, go 4, go 1,
    .ext (.clocks (fun _ => 10) 10), .start 5 (.timer .completion 1), go 5]

def maskedConfig : Config ProcSig :=
  (processor.exec (start maskedCore) maskedRun).getD (start maskedCore)

/-- Without groups only the mapping matters, and only where there are
registrations. -/
theorem Core.accounted_of_ungrouped {w : Core} (ungrouped : w.groupLookup = none)
    (mapped : ∀ r ∈ w.activeEvents, ∀ d ∈ w.modes.registry.keys,
      d ∈ w.devicesOf (w.record r).programHref) : w.Accounted where
  mapped := fun r active d some_ =>
    mapped r active d (ActiveModeTracker.mem_keys_of_modesOf some_)
  grouped := by
    intro r active d some_ grouped
    unfold Core.groupLocalLfdis at grouped
    rw [ungrouped] at grouped
    cases grouped

/-- Its third call. -/
def maskedEntry : Issued := maskedConfig.state.issued.get ⟨2, by decide⟩

/-- The second event's end brings the default back without the mode the first
event still holds. -/
theorem maskedConfig_spares :
    maskedEntry ∈ maskedConfig.state.issued ∧
      maskedEntry.call =
        .defaultControl (.href "/edev/1") (defaultWithout bothModes {.opModFixedW}) (some 2) ∧
      maskedEntry.at_.activeEvents = [0] ∧
      maskedEntry.at_.modes.modesOf "/edev/1" 1 = {.opModFixedW} ∧
      maskedEntry.at_.Spares (.href "/edev/1") (defaultWithout bothModes {.opModFixedW}) := by
  have run : processor.Run (fun _ _ _ => True) (start maskedCore) maskedConfig :=
    processor.run_exec maskedRun (by decide)
  have made : maskedEntry ∈ maskedConfig.state.issued := List.get_mem _ _
  have called : maskedEntry.call =
      .defaultControl (.href "/edev/1") (defaultWithout bothModes {.opModFixedW}) (some 2) := by
    decide
  refine ⟨made, called, by decide, by decide, ?_⟩
  exact default_spares_running run maskedEntry made _ _ _ called
    (Core.accounted_of_ungrouped (by decide) (by decide))

/-! ### A device taken from a running event -/

/-- Two programs on one device; the second one has the default. -/
def sharedPrograms (pairs : List (Href × Href)) : Core :=
  plainCore
    [plainProgram "/derp/1" 1 [plainControl 1 0 1000 .opModFixedW],
      { plainProgram "/derp/2" 2 [] with defaultDercontrol := some bothModes }] pairs

/-- The event of the first program starts; a rediscovery finds the device
assigned to the second program only, which is then polled. -/
def reassignedRun : List (Label processor) :=
  let go := fun pid => Label.resume pid Request.success
  [.start 1 (.processControls "/derp/1" 0), go 1, .start 2 (.dispatchAndReport 0 "/edev/1"), go 2,
    go 2, go 1,
    .ext (.discovered (sharedPrograms [("/derp/2", "/edev/1")]).discovered (fun _ => 1) true),
    .start 4 (.processControls "/derp/2" 0)]

def reassignedConfig : Config ProcSig :=
  let core := sharedPrograms [("/derp/1", "/edev/1"), ("/derp/2", "/edev/1")]
  (processor.exec (start core) reassignedRun).getD (start core)

/-- Its second call. -/
def reassignedEntry : Issued := reassignedConfig.state.issued.get ⟨1, by decide⟩

/-- The default is written over the mode the running event holds. -/
theorem reassigned_overwrites :
    processor.Run (fun _ _ _ => True)
        (start (sharedPrograms [("/derp/1", "/edev/1"), ("/derp/2", "/edev/1")]))
        reassignedConfig ∧
      reassignedEntry ∈ reassignedConfig.state.issued ∧
      reassignedEntry.call = .defaultControl (.href "/edev/1") bothModes none ∧
      reassignedEntry.at_.activeEvents = [0] ∧
      reassignedEntry.at_.modes.modesOf "/edev/1" 1 = {.opModFixedW} ∧
      ¬ reassignedEntry.at_.Spares (.href "/edev/1") bothModes := by
  refine ⟨processor.run_exec reassignedRun (by decide), List.get_mem _ _, by decide, by decide,
    by decide, ?_⟩
  intro spares
  have disjoint := spares 0 (by decide) "/edev/1" (.inl rfl)
  rw [Finset.disjoint_left] at disjoint
  have held : Mode.opModFixedW ∈
      reassignedEntry.at_.modes.modesOf "/edev/1" (reassignedEntry.at_.record 0).mrid := by decide
  exact disjoint held (by decide)

end Py20305
