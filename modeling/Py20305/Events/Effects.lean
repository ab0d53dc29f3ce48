import Py20305.Events.System

/-!
What each coroutine of the processor can do at all: the kinds of commands it
issues and of waits it makes, whatever it reads and whatever it is answered.

These are the frame conditions of the development. A property that none of the
listed effects touches is kept by the coroutine without looking into it.
-/

namespace Py20305

open Coroutine Co

/-- The kinds of commands. -/
inductive Effect where
  | upsert | setState | refresh | supersede | outcome | optOut | prune | offsets | register
  | unregister | clearDefaults | recordDefault | boundary | claim | schedule | cancelTimers
  | spawn | finishChild | close | control | issue | hold
  deriving DecidableEq

/-- Whether a call puts an event's control on a device. -/
def Call.isControl : Call → Bool
  | control _ _ _ => true
  | _ => false

/-- The kind of a command. -/
def Cmd.effect : Cmd → Effect
  | upsert _ => .upsert
  | setState _ _ => .setState
  | refresh _ _ _ => .refresh
  | addSuperseded _ _ | addSupersededModes _ _ _ => .supersede
  | addApplied _ _ | addRejected _ _ => .outcome
  | setOptedOut _ => .optOut
  | pruneStore _ | pruneOffsets _ | pruneResponses _ => .prune
  | drawOffsets _ | overrideOffset _ _ => .offsets
  | register _ _ _ => .register
  | unregister _ _ => .unregister
  | clearDderc _ => .clearDefaults
  | recordDderc _ _ _ _ => .recordDefault
  | raiseBoundary _ => .boundary
  | claim _ => .claim
  | schedule _ => .schedule
  | cancelTimers _ => .cancelTimers
  | spawn _ _ => .spawn
  | finishChild => .finishChild
  | close => .close
  | issue calls => if calls.any Call.isControl then .control else .issue
  | hold _ => .hold

/-- The kinds of waits. -/
inductive Await where
  | stateReady | supportedModes2 | settled | post | dispatch | gather | join
  deriving DecidableEq

/-- The kind of a wait. -/
def Request.kind : Request → Await
  | stateReady => .stateReady
  | supportedModes2 _ => .supportedModes2
  | settled _ => .settled
  | post _ _ => .post
  | dispatch _ => .dispatch
  | gather _ => .gather
  | join => .join

/-- `m` issues only commands of the kinds `es`, waits only for the kinds `ws`
and raises only if `E`. -/
def Within {α : Type} (m : Proc α) (es : List Effect) (ws : List Await) (E : Prop := False) :
    Prop :=
  m.Only (fun (c : Cmd) => c.effect ∈ es) (fun (r : Request) => r.kind ∈ ws) E

section Rules

variable {α β : Type} {es es' : List Effect} {ws ws' : List Await} {E : Prop}

theorem Within.mono {m : Proc α} (h : Within m es ws) (effects : es ⊆ es') (waits : ws ⊆ ws') :
    Within m es' ws' E :=
  Only.mono h (fun _ hc => effects hc) (fun _ hr => waits hr) False.elim

theorem Within.widen {m : Proc α} (h : Within m es ws E) (effects : es ⊆ es') (waits : ws ⊆ ws') :
    Within m es' ws' E :=
  Only.mono h (fun _ hc => effects hc) (fun _ hr => waits hr) id

theorem Within.pure (a : α) : Within (Pure.pure a : Proc α) es ws E := trivial

theorem Within.bind {m : Proc α} {k : α → Proc β} (first : Within m es ws E)
    (rest : ∀ a, Within (k a) es ws E) : Within (m >>= k) es ws E :=
  Only.bind first rest

theorem Within.get {k : World → Proc β} (rest : ∀ w, Within (k w) es ws E) :
    Within (getWorld >>= k) es ws E := rest

theorem Within.perform {c : Cmd} (listed : c.effect ∈ es) : Within (perform c) es ws E :=
  ⟨listed, trivial⟩

theorem Within.waitFor {r : Request} (listed : r.kind ∈ ws) : Within (waitFor r) es ws E :=
  ⟨listed, fun _ => trivial⟩

theorem Within.forEach {ι : Type} {xs : List ι} {body : ι → Proc Unit}
    (each : ∀ x ∈ xs, Within (body x) es ws E) : Within (Co.forEach xs body) es ws E :=
  Only.forEach each

theorem Within.onlyIf {c : Prop} [Decidable c] {m : Proc Unit} (h : c → Within m es ws E) :
    Within (onlyIf c m) es ws E := by
  unfold Py20305.onlyIf
  split
  · rename_i holds
    exact h holds
  · exact Within.pure ()

theorem Within.unlessClosed {m : Proc Unit} (h : Within m es ws E) :
    Within (unlessClosed m) es ws E := by
  refine Within.get fun w => ?_
  split
  · exact Within.pure ()
  · exact h

theorem stopIfClosed_within : Within stopIfClosed es ws E := Within.get fun _ => Within.pure _

end Rules

/-- The waits of a response. -/
abbrev responseWaits : List Await := [.supportedModes2, .settled, .post]

/-! ### Responses -/

theorem reserve_within (key : ResponseKey) : Within (reserve key) [.claim] [.settled] := by
  refine Within.get fun w => ?_
  split
  · exact Within.pure _
  · split
    · exact Within.waitFor (by simp [Request.kind])
    · exact Within.bind (Within.perform (by simp [Cmd.effect])) fun _ => Within.pure _

theorem postDerResponse_within (derc : Dercontrol) (code : ResponseCode) (lfdi : Lfdi)
    (now : Int) : Within (postDerResponse derc code lfdi now) [.claim] responseWaits := by
  refine Within.get fun w => ?_
  dsimp only
  split
  · exact Within.pure _
  · split
    · exact Within.pure _
    · refine Within.bind ((reserve_within _).mono (by decide) (by decide)) fun mustPost => ?_
      refine Within.onlyIf fun _ => ?_
      exact Within.bind (Within.waitFor (by simp [Request.kind])) fun _ => Within.pure _

theorem respondFor_within (derc : Dercontrol) (code : ResponseCode) (lfdi : Lfdi) :
    Within (respondFor derc code lfdi) [.claim] responseWaits := by
  refine Within.get fun w => Within.bind ?_ fun _ => postDerResponse_within _ _ _ _
  exact Within.get fun w => Within.onlyIf fun _ => Within.waitFor (by simp [Request.kind])

/-- What a response claims and posts: one code, as it goes to the wire. -/
theorem respondFor_only (derc : Dercontrol) (code : ResponseCode) (lfdi : Lfdi) :
    (respondFor derc code lfdi).Only (fun c : Cmd => c.effect = .claim)
      (fun r : Request => ∀ key at_, r = .post key at_ →
        ∃ edition, key = ⟨derc.mrid, resolveWireCode edition derc code, lfdi⟩) False := by
  intro w
  refine Only.bind (m := supportedModes2 lfdi) ?_ fun _ w' => ?_
  · intro w'
    change Only _ _ _ (Py20305.onlyIf _ _)
    unfold Py20305.onlyIf
    split
    · exact ⟨nofun, fun _ => trivial⟩
    · trivial
  · change Only _ _ _ (if _ then _ else _)
    split
    · trivial
    · split
      · trivial
      · refine Only.bind ?_ fun mustPost => ?_
        · refine Only.mono (reserve_within _) (fun c listed => by simpa using listed) ?_ id
          rintro r listed key at_ rfl
          simp [Request.kind] at listed
        · unfold Py20305.onlyIf
          split
          · refine ⟨fun key at_ same => ?_, fun _ => trivial⟩
            cases same
            exact ⟨_, rfl⟩
          · trivial

theorem respondForDevice_within (derc : Dercontrol) (code : ResponseCode) (d : Href) :
    Within (respondForDevice derc code d) [.claim] responseWaits := by
  refine Within.get fun w => ?_
  split
  · exact Within.pure _
  · exact respondFor_within _ _ _

theorem postResponseForDevices_within (derc : Dercontrol) (code : ResponseCode) (ds : List Href) :
    Within (postResponseForDevices derc code ds) [.claim] responseWaits :=
  Within.get fun _ => Within.forEach fun d _ => respondForDevice_within _ _ d

theorem postResponse_within (derc : Dercontrol) (code : ResponseCode) (program : Href)
    (exclude : List Href) :
    Within (postResponse derc code program exclude) [.claim] responseWaits := by
  refine Within.get fun w => ?_
  dsimp only
  split
  · split
    · exact Within.pure _
    · split
      · exact Within.pure _
      · exact respondFor_within _ _ _
  · refine Within.forEach fun d _ => ?_
    split
    · exact Within.pure _
    · exact respondForDevice_within _ _ d

theorem postStartedDeviceLifecycle_within (r : Ref) (code : ResponseCode) :
    Within (postStartedDeviceLifecycle r code) [.claim] responseWaits := by
  refine Within.get fun w => ?_
  dsimp only
  split
  · exact postResponse_within _ _ _ _
  · exact postResponseForDevices_within _ _ _

/-! ### Dispatch -/

theorem issue_effect (calls : List Call) : (Cmd.issue calls).effect ∈ [.control, .issue] := by
  simp only [Cmd.effect]
  split <;> simp

/-- Where neither kind of call is listed, no call is. -/
theorem issue_effect_notMem (calls : List Call) {es : List Effect} (control : .control ∉ es)
    (issue : .issue ∉ es) : (Cmd.issue calls).effect ∉ es := by
  simp only [Cmd.effect]
  split
  · exact control
  · exact issue

theorem gatherCalls_within (calls : List Call) :
    Within (gatherCalls calls) [.control, .issue] [.gather] := by
  refine Within.bind (Within.perform (issue_effect calls)) fun _ => ?_
  split
  · exact Within.pure _
  · exact Within.waitFor (by simp [Request.kind])

/-- Several calls none of which is a control. -/
theorem gatherCalls_within_issue {calls : List Call}
    (others : ∀ call ∈ calls, call.isControl = false) :
    Within (gatherCalls calls) [.issue] [.gather] := by
  have none_ : calls.any Call.isControl = false := by
    rw [List.any_eq_false]
    intro call member
    simp [others call member]
  refine Within.bind (Within.perform ?_) fun _ => ?_
  · simp [Cmd.effect, none_]
  · split
    · exact Within.pure _
    · exact Within.waitFor (by simp [Request.kind])

theorem respondOutcome_within (r : Ref) (d : Href) (failure : Option DispatchFailure) :
    Within (respondOutcome r d failure) [.outcome, .unregister, .claim] responseWaits := by
  cases failure with
  | none =>
      refine Within.bind (Within.perform (by simp [Cmd.effect])) fun _ => Within.get fun w => ?_
      exact (postResponseForDevices_within _ _ _).mono (by decide) (by decide)
  | some f =>
      refine Within.bind (Within.perform (by simp [Cmd.effect])) fun _ => Within.get fun w => ?_
      refine Within.bind (Within.perform (by simp [Cmd.effect])) fun _ => ?_
      exact (postResponseForDevices_within _ _ _).mono (by decide) (by decide)

/-- What the tasks of a dispatch can do. -/
abbrev childEffects : List Effect := [.control, .outcome, .unregister, .claim, .finishChild]

theorem dispatchAndReport_within (r : Ref) (d : Href) :
    Within (dispatchAndReport r d) childEffects (.dispatch :: responseWaits) := by
  refine Within.get fun w => Within.bind (Within.perform (by simp [Cmd.effect, Call.isControl])) fun _ => ?_
  refine Within.bind (Within.waitFor (by simp [Request.kind])) fun failure => ?_
  refine Within.bind ((respondOutcome_within r d failure).mono (by decide) (by decide)) fun _ => ?_
  exact Within.perform (by decide)

theorem dispatchByLfdiGroup_within (r : Ref) (lfdis : List Lfdi) (targets : List Href) :
    Within (dispatchByLfdiGroup r lfdis targets) [.control, .issue, .outcome, .unregister, .claim]
      (.gather :: responseWaits) := by
  refine Within.get fun w => ?_
  refine Within.bind ((gatherCalls_within _).mono (by decide) (by decide)) fun results => ?_
  exact Within.forEach fun d _ => (respondOutcome_within r d _).mono (by decide) (by decide)

/-- What `_apply_and_respond` can do. -/
abbrev applyEffects : List Effect :=
  [.register, .control, .issue, .spawn, .outcome, .unregister, .claim]

theorem applyAndRespond_within (r : Ref) :
    Within (applyAndRespond r) applyEffects (.gather :: .join :: responseWaits) := by
  refine Within.get fun w => ?_
  dsimp only
  split
  · exact (postResponse_within _ _ _ _).mono (by decide) (by decide)
  · refine Within.bind (Within.forEach fun d _ => Within.perform (by simp [Cmd.effect])) fun _ => ?_
    split
    · exact (dispatchByLfdiGroup_within _ _ _).mono (by decide) (by decide)
    · exact Within.bind (Within.perform (by simp [Cmd.effect])) fun _ => Within.waitFor (by decide)

/-! ### Defaults -/

/-- What falling back to a default can do. -/
abbrev fallbackEffects : List Effect := [.unregister, .issue, .recordDefault]

theorem recordDefaults_within (results : Nat → Option DispatchFailure) (from_ : Nat)
    (plans : List (DefaultTarget × List Call)) :
    Within (recordDefaults results from_ plans) [.recordDefault] [] := by
  induction plans generalizing from_ with
  | nil => exact Within.pure _
  | cons plan rest ih =>
      refine Within.get fun w => Within.bind (Within.onlyIf fun _ => ?_) fun _ => ih _
      exact Within.perform (by simp [Cmd.effect])

theorem defaultCalls_isControl (w : Core) {cause : Option Mrid} {d program : Href}
    {dderc : DefaultDercontrol} {call : Call}
    (member : call ∈ w.defaultCalls cause d program dderc) : call.isControl = false := by
  obtain ⟨t, -, rfl⟩ := List.mem_map.mp member
  rfl

theorem withdrawCalls_isControl (w : Core) {r : Ref} {devices : List Href} {plan : FallbackPlan}
    {call : Call} (member : call ∈ w.withdrawCalls r devices plan) : call.isControl = false := by
  unfold Core.withdrawCalls at member
  dsimp only at member
  split at member
  · obtain ⟨e, -, rfl⟩ := List.mem_map.mp member
    rfl
  · split at member
    · cases member
    · obtain ⟨l, -, rfl⟩ := List.mem_map.mp member
      rfl

theorem clearCalls_isControl (w : Core) {r : Ref} {plan : FallbackPlan} {call : Call}
    (member : call ∈ w.clearCalls r plan) : call.isControl = false := by
  unfold Core.clearCalls at member
  dsimp only at member
  split at member
  · obtain ⟨d, -, rfl⟩ := List.mem_map.mp member
    rfl
  · obtain ⟨l, -, rfl⟩ := List.mem_map.mp member
    rfl

theorem dispatchDefaults_within (r : Ref) (plan : FallbackPlan) :
    Within (dispatchDefaults r plan) [.issue, .recordDefault] [.gather] := by
  refine Within.onlyIf fun _ => Within.get fun w => ?_
  refine Within.bind ((gatherCalls_within_issue ?_).mono (by decide) (by decide)) fun results => ?_
  · intro call member
    obtain ⟨entry, listed, made⟩ := List.mem_flatMap.mp member
    obtain ⟨target, -, rfl⟩ := List.mem_map.mp listed
    exact defaultCalls_isControl w.toCore made
  · exact (recordDefaults_within _ _ _).mono (by decide) (by decide)

theorem withdrawReleased_within (r : Ref) (devices : List Href) (plan : FallbackPlan) :
    Within (withdrawReleased r devices plan) [.issue] [.gather] := by
  refine Within.onlyIf fun _ => Within.get fun w => ?_
  refine Within.bind (gatherCalls_within_issue fun call member => ?_) fun _ => Within.pure _
  exact withdrawCalls_isControl w.toCore member

theorem clearDevices_within (r : Ref) (plan : FallbackPlan) :
    Within (clearDevices r plan) [.issue] [.gather] := by
  refine Within.onlyIf fun _ => Within.get fun w => ?_
  refine Within.bind (gatherCalls_within_issue fun call member => ?_) fun _ => Within.pure _
  exact clearCalls_isControl w.toCore member

theorem applyDdercFallback_within (r : Ref) (clearIfNoDderc : Bool) :
    Within (applyDdercFallback r clearIfNoDderc) fallbackEffects [.gather] := by
  refine Within.get fun w => ?_
  refine Within.bind (Within.forEach fun d _ => Within.perform (by simp [Cmd.effect])) fun _ => ?_
  dsimp only
  split
  · exact Within.pure _
  · refine Within.get fun w' => ?_
    refine Within.bind ((dispatchDefaults_within _ _).mono (by decide) (by decide)) fun _ => ?_
    refine Within.bind ((withdrawReleased_within _ _ _).mono (by decide) (by decide)) fun _ => ?_
    exact (clearDevices_within _ _).mono (by decide) (by decide)

theorem recordInitial_within (results : Nat → Option DispatchFailure) (p : Href) (mrid : Mrid)
    (ps : DerProgramState) (epoch perTarget from_ : Nat) (targets : List (Href × Lfdi)) :
    Within (recordInitial results p mrid ps epoch perTarget from_ targets) [.recordDefault] [] := by
  induction targets generalizing from_ with
  | nil => exact Within.pure _
  | cons target rest ih =>
      refine Within.get fun w => Within.bind (Within.onlyIf fun _ => ?_) fun _ => ih _
      exact Within.perform (by simp [Cmd.effect])

theorem applyInitialDderc_within (p : Href) :
    Within (applyInitialDderc p) [.issue, .recordDefault] [.gather] := by
  refine Within.get fun w => ?_
  split
  · exact Within.pure _
  · split
    · exact Within.pure _
    · split
      · exact Within.pure _
      · dsimp only
        split
        · exact Within.pure _
        · split
          · exact Within.pure _
          · refine Within.bind ((gatherCalls_within_issue ?_).mono (by decide) (by decide))
              fun _ => ?_
            · intro call member
              obtain ⟨target, -, made⟩ := List.mem_flatMap.mp member
              exact defaultCalls_isControl w.toCore made
            · exact (recordInitial_within _ _ _ _ _ _ _ _).mono (by decide) (by decide)

/-! ### Transitions -/

theorem transition_within (mrid : Mrid) (st : EventState) :
    Within (transition mrid st) [.setState] [] True := by
  refine Within.get fun w => ?_
  split
  · trivial
  · exact Within.perform (by simp [Cmd.effect])

theorem record_setState_self (w : World) (r : Ref) (st : EventState) :
    (World.exec (.setState r st) w).record r = { w.record r with state := st } :=
  EventStore.object_update_self w.store r fun record => { record with state := st }

theorem record_setState_ne (w : World) {r q : Ref} (st : EventState) (other : q ≠ r) :
    (World.exec (.setState r st) w).record q = w.record q :=
  EventStore.object_update_ne w.store (fun record => { record with state := st }) other

theorem mrid_setState (w : World) (r q : Ref) (st : EventState) :
    ((World.exec (.setState r st) w).record q).mrid = (w.record q).mrid := by
  by_cases same : q = r
  · rw [same, record_setState_self]
  · rw [record_setState_ne w st same]

theorem eval_getWorld {α : Type} (o : Oracle ProcSig) (k : World → Proc α) (w : World) :
    (getWorld >>= k).eval o w = (k w).eval o w := rfl

/-- A transition of a stored event. -/
theorem eval_transition (o : Oracle ProcSig) {w : World} {mrid : Mrid} {r : Ref} (st : EventState)
    (stored : w.store.get? mrid = some r) :
    (transition mrid st).eval o w = (some (), World.exec (.setState r st) w) := by
  unfold transition
  rw [eval_getWorld, stored]
  rfl

/-- A transition of an event that is not stored. -/
theorem eval_transition_none (o : Oracle ProcSig) {w : World} {mrid : Mrid} (st : EventState)
    (absent : w.store.get? mrid = none) : (transition mrid st).eval o w = (none, w) := by
  unfold transition
  rw [eval_getWorld, absent]
  rfl

theorem cancelProgram_within (p : Href) :
    Within (cancelProgram p) [.setState, .cancelTimers] [] True := by
  refine Within.get fun w => Within.forEach fun r _ => Within.bind ?_ fun _ => ?_
  · exact (transition_within _ _).widen (by decide) (by decide)
  · exact Within.perform (by simp [Cmd.effect])

theorem cancellationTail_within (r : Ref) (record : EventRecord) :
    Within (cancellationTail r record) (.cancelTimers :: .claim :: .schedule :: fallbackEffects)
      (.gather :: responseWaits) := by
  refine Within.bind (Within.perform (by simp [Cmd.effect])) fun _ => Within.bind ?_ fun _ => ?_
  · exact (postStartedDeviceLifecycle_within _ _).mono (by decide) (by decide)
  · refine Within.onlyIf fun _ => Within.get fun w => ?_
    dsimp only
    split
    · exact Within.perform (by simp [Cmd.effect])
    · exact (applyDdercFallback_within _ _).mono (by decide) (by decide)

theorem scheduleCompletion_within (r : Ref) : Within (scheduleCompletion r) [.schedule] [] :=
  Within.get fun _ => Within.perform (by simp [Cmd.effect])

theorem handleNewScheduled_within (r : Ref) :
    Within (handleNewScheduled r) [.claim, .schedule] responseWaits := by
  refine Within.get fun w => Within.bind ?_ fun _ => ?_
  · exact (postResponse_within _ _ _ _).mono (by decide) (by decide)
  · exact Within.unlessClosed (Within.get fun _ => Within.perform (by simp [Cmd.effect]))

theorem awaitStateReady_within : Within awaitStateReady [] [.stateReady] :=
  Within.get fun _ => Within.onlyIf fun _ => Within.waitFor (by decide)

theorem effectiveOffsets_within (p : Href) (derc : Dercontrol) :
    Within (effectiveOffsets p derc) [.offsets] [] := by
  refine Within.get fun w => Within.bind (Within.perform (by simp [Cmd.effect])) fun _ => ?_
  refine Within.get fun w' => ?_
  dsimp only
  split
  · exact Within.pure _
  · exact Within.bind (Within.perform (by simp [Cmd.effect])) fun _ => Within.pure _

/-! ### Rely and guarantee for coroutines of the processor -/

section Holds

variable {α β : Type} {L : RelyGuarantee processor} {p : Pid} {w : World}
  {Q : β → World → Prop}

theorem holds_get {k : World → Proc β} (rest : L.Holds p Q (k w) w) :
    L.Holds p Q (getWorld >>= k) w := rest

theorem holds_perform {c : Cmd} {k : Unit → Proc β} (kept : L.guar p w (World.exec c w))
    (rest : L.Holds p Q (k ()) (World.exec c w)) : L.Holds p Q (perform c >>= k) w := ⟨kept, rest⟩

theorem holds_waitFor {r : Request} {k : r.Answer → Proc β}
    (rest : ∀ w', L.rely p w w' → L.inv w' → ∀ (a : r.Answer) w'', w'.reply p r a = some w'' →
      L.guar p w' w'' ∧ L.Holds p Q (k a) w'') : L.Holds p Q (waitFor r >>= k) w := rest

end Holds

theorem start_parked (w : Core) : RelyGuarantee.Parked (start w) := by
  rintro q k ⟨⟩

theorem start_safe {L : RelyGuarantee processor} {w : Core} (settled : L.inv (start w).state) :
    L.Safe (start w) := by
  refine ⟨settled, ?_⟩
  rintro q k ⟨⟩

/-! ### One traversal for all -/

/-- The effects that say nothing about an event but that it was opted out, nor
about which modes it holds, nor which defaults are in place. -/
abbrev housekeeping : List Effect :=
  [.optOut, .clearDefaults, .boundary, .claim, .schedule, .cancelTimers, .close]

/-- The effects that leave open what an event is and where it stands. -/
abbrev carriers : List Effect :=
  housekeeping ++ [.supersede, .outcome, .register, .unregister, .recordDefault, .finishChild]

/-- The effects of everything but dispatching and pruning. -/
abbrev settling : List Effect := carriers ++ [.upsert, .setState, .refresh, .offsets, .hold]

/-- The effects of storing, changing and marking events. -/
abbrev arranging : List Effect := [.supersede, .upsert, .setState, .refresh, .offsets, .hold]

/-- The effects that make no dispatcher call. -/
abbrev silent : List Effect := .spawn :: .prune :: settling

/-- All waits. -/
abbrev anyAwait : List Await :=
  [.stateReady, .supportedModes2, .settled, .post, .dispatch, .gather, .join]

/-- The waits of everything but putting a control on devices. -/
abbrev calm : List Await := [.stateReady, .supportedModes2, .settled, .post, .gather]

/-- The waits of everything that posts no response either. -/
abbrev hushed : List Await := [.stateReady, .gather]

/-- A property of coroutines that sequencing keeps, that everything has whose
effects are `plain` and that posts nothing, and that the responses other than
ACTIVE and EXPIRED and the two ways of sending defaults have. Putting a control
on devices is left to the lemmas that use it. -/
structure Composes (plain : List Effect) (Good : {α : Type} → Proc α → Prop) : Prop where
  carries : housekeeping ⊆ plain
  bind : ∀ {α β : Type} {m : Proc α} {k : α → Proc β}, Good m → (∀ a, Good (k a)) → Good (m >>= k)
  get : ∀ {β : Type} {k : World → Proc β}, (∀ w, Good (k w)) → Good (getWorld >>= k)
  quiet : ∀ {α : Type} {m : Proc α}, Within m plain hushed True → Good m
  respond : ∀ {code : ResponseCode}, code ≠ .active → code ≠ .expired →
    ∀ derc lfdi, Good (respondFor derc code lfdi)
  fallback : ∀ r clear, Good (applyDdercFallback r clear)
  initial : ∀ p, Good (applyInitialDderc p)

namespace Composes

variable {plain : List Effect} {Good : {α : Type} → Proc α → Prop} (good : Composes plain Good)

include good

theorem pure {α : Type} (a : α) : Good (Pure.pure a : Proc α) := good.quiet (Within.pure a)

theorem perform {c : Cmd} (listed : c.effect ∈ housekeeping) : Good (perform c) :=
  good.quiet (Within.perform (good.carries listed))

theorem within {α : Type} {m : Proc α} {es : List Effect} {ws : List Await} (h : Within m es ws)
    (effects : es ⊆ housekeeping) (waits : ws ⊆ hushed) : Good m :=
  good.quiet (h.mono (fun _ listed => good.carries (effects listed)) waits)

theorem forEach {ι : Type} {xs : List ι} {body : ι → Proc Unit} (each : ∀ x, Good (body x)) :
    Good (Co.forEach xs body) := by
  induction xs with
  | nil => exact good.pure ()
  | cons x rest ih => exact good.bind (each x) fun _ => ih

theorem onlyIf {c : Prop} [Decidable c] {m : Proc Unit} (h : Good m) : Good (onlyIf c m) := by
  unfold Py20305.onlyIf
  split
  · exact h
  · exact good.pure ()

theorem unlessClosed {m : Proc Unit} (h : Good m) : Good (unlessClosed m) := by
  refine good.get fun w => ?_
  split
  · exact good.pure ()
  · exact h

theorem stopIfClosed : Good stopIfClosed := good.quiet stopIfClosed_within

section Responding

variable {code : ResponseCode} (responding : ∀ derc lfdi, Good (respondFor derc code lfdi))

include responding

theorem respondForDevice (derc : Dercontrol) (d : Href) : Good (respondForDevice derc code d) := by
  refine good.get fun w => ?_
  split
  · exact good.pure ()
  · exact responding _ _

theorem postResponseForDevices (derc : Dercontrol) (devices : List Href) :
    Good (postResponseForDevices derc code devices) :=
  good.get fun _ => good.forEach fun d => good.respondForDevice responding derc d

theorem postResponse (derc : Dercontrol) (program : Href) (exclude : List Href) :
    Good (postResponse derc code program exclude) := by
  refine good.get fun w => ?_
  dsimp only
  split
  · split
    · exact good.pure ()
    · split
      · exact good.pure ()
      · exact responding _ _
  · refine good.forEach fun d => ?_
    split
    · exact good.pure ()
    · exact good.respondForDevice responding derc d

theorem postStartedDeviceLifecycle (r : Ref) : Good (postStartedDeviceLifecycle r code) := by
  refine good.get fun w => ?_
  dsimp only
  split
  · exact good.postResponse responding _ _ _
  · exact good.postResponseForDevices responding _ _

end Responding

theorem handleNewScheduled (r : Ref) : Good (handleNewScheduled r) := by
  refine good.get fun w => good.bind (good.postResponse (good.respond (by decide) (by decide)) _ _ _) fun _ => ?_
  exact good.unlessClosed (good.get fun w' => good.perform (by simp [Cmd.effect]))

theorem optOutEvent (r : Ref) : Good (optOutEvent r) := by
  refine good.bind (good.perform (by simp [Cmd.effect])) fun _ => good.get fun w => ?_
  refine good.bind (good.perform (by simp [Cmd.effect])) fun _ => ?_
  exact good.bind (good.perform (by simp [Cmd.effect])) fun _ => good.fallback r true

theorem enterCommsLoss : Good enterCommsLoss := by
  refine good.get fun w => ?_
  refine good.bind (good.forEach fun r => good.perform (by simp [Cmd.effect])) fun _ => ?_
  refine good.bind (good.forEach fun r => ?_) fun _ => good.forEach fun r => good.fallback r true
  refine good.bind (good.perform (by simp [Cmd.effect])) fun _ => ?_
  exact good.perform (by simp [Cmd.effect])

/-- After its transition `_handle_cancellation` only carries on. -/
theorem cancellationTail (r : Ref) (record : EventRecord) : Good (cancellationTail r record) := by
  refine good.bind (good.perform (by simp [Cmd.effect])) fun _ => good.bind ?_ fun _ => ?_
  · exact good.postStartedDeviceLifecycle (good.respond (by decide) (by decide)) r
  · refine good.onlyIf (good.get fun w => ?_)
    dsimp only
    split
    · exact good.perform (by simp [Cmd.effect])
    · exact good.fallback r false

section Superseding

variable (superseding : ∀ map result, Good (Py20305.supersede map result))

include superseding

theorem runSupersession : Good runSupersession := by
  refine good.get fun w => ?_
  dsimp only
  split
  · exact good.pure ()
  · exact good.forEach fun result => superseding _ result

theorem startEvent {r : Ref} (applying : Good (applyAndRespond r)) : Good (startEvent r) := by
  refine good.bind (good.runSupersession superseding) fun _ => good.unlessClosed ?_
  refine good.bind applying fun _ => good.unlessClosed ?_
  exact good.within (scheduleCompletion_within r) (by decide) (by decide)

theorem handleLateDiscovery {r : Ref} (applying : Good (applyAndRespond r)) :
    Good (handleLateDiscovery r) := by
  refine good.get fun w => ?_
  split
  · exact good.optOutEvent r
  · refine good.bind ?_ fun _ => good.unlessClosed (good.startEvent superseding applying)
    exact good.postResponse (good.respond (by decide) (by decide)) _ _ _

end Superseding

theorem introduce (st : EventState) {r : Ref} (late : Good (Py20305.handleLateDiscovery r)) :
    Good (introduce st r) := by
  unfold Py20305.introduce
  split
  · exact good.handleNewScheduled r
  · exact late

section Moving

variable (moving : ∀ mrid st, st.isTerminal = true → Good (Py20305.transition mrid st))
  (activating : ∀ mrid, Good (Py20305.transition mrid .active))
  (holding : ∀ refs, Good (Py20305.perform (.hold refs)))
  (marking : ∀ {c : Cmd}, c.effect = .supersede → Good (Py20305.perform c))
  (superseding : ∀ map result, Good (Py20305.supersede map result))

include moving

theorem supersedeIfFully (map : ProgramDevices) (r : Ref) : Good (supersedeIfFully map r) := by
  refine good.get fun w => good.onlyIf (good.bind (moving _ _ rfl) fun _ => ?_)
  refine good.bind (good.perform (by simp [Cmd.effect])) fun _ => ?_
  exact good.onlyIf (good.fallback r false)

include holding marking in
theorem supersede (map : ProgramDevices) (result : SupersessionResult) :
    Good (supersede map result) := by
  refine good.get fun w => ?_
  split
  · dsimp only
    split
    · exact good.pure ()
    · split
      · exact good.pure ()
      · refine good.bind (marking rfl) fun _ => ?_
        refine good.bind (holding _) fun _ => ?_
        refine good.bind ?_ fun _ => ?_
        · exact good.postResponseForDevices (good.respond (by decide) (by decide)) _ _
        · refine good.bind (holding _) fun _ => ?_
          refine good.bind ?_ fun _ => good.supersedeIfFully moving map _
          exact good.onlyIf (marking rfl)
  · exact good.pure ()

theorem handleCancellation (r : Ref) : Good (handleCancellation r) := by
  refine good.get fun w => good.bind (moving _ _ rfl) fun _ => ?_
  exact good.cancellationTail r (w.record r)

omit moving in
include activating superseding in
theorem onActivation {r : Ref} (applying : Good (applyAndRespond r)) : Good (onActivation r) := by
  refine good.bind (good.within awaitStateReady_within (by decide) (by decide)) fun _ => ?_
  refine good.get fun w => ?_
  split
  · exact good.pure ()
  · refine good.bind (activating _) fun _ => good.get fun w' => ?_
    split
    · exact good.optOutEvent r
    · exact good.startEvent superseding applying

theorem onCompletion (r : Ref) : Good (onCompletion r) := by
  refine good.bind (good.within awaitStateReady_within (by decide) (by decide)) fun _ => ?_
  refine good.get fun w => ?_
  split
  · exact good.pure ()
  · refine good.bind (moving _ _ rfl) fun _ => good.bind ?_ fun _ => good.fallback r false
    exact good.postStartedDeviceLifecycle (good.respond (by decide) (by decide)) r

theorem fireTimer (callback : Callback) {r : Ref} (waking : Good (Py20305.onActivation r)) :
    Good (fireTimer callback r) := by
  refine good.get fun w => ?_
  split
  · exact good.pure ()
  · split
    · exact waking
    · exact good.onCompletion moving r
    · exact good.fallback r false

include holding in
theorem cancelRemoved (now : Int) (rs : List Ref) : Good (cancelRemoved now rs) := by
  induction rs with
  | nil => exact good.pure false
  | cons r rest ih =>
      refine good.get fun w => ?_
      split
      · exact ih
      · refine good.bind (holding _) fun _ => ?_
        refine good.bind (good.handleCancellation moving r) fun _ => ?_
        refine good.bind (holding _) fun _ => ?_
        refine good.bind good.stopIfClosed fun stop => ?_
        split
        · exact good.pure true
        · exact ih

include holding in
theorem reconcileServed (ps : DerProgramState) (epoch : Nat) (now : Int) :
    Good (reconcileServed ps epoch now) := by
  refine good.get fun w => ?_
  dsimp only
  split
  · exact good.cancelRemoved moving holding _ _
  · exact good.pure false

theorem cancelProgram (p : Href) : Good (cancelProgram p) := by
  refine good.get fun w => good.forEach fun r => good.bind (moving _ _ rfl) fun _ => ?_
  exact good.perform (by simp [Cmd.effect])

end Moving

section Silent

variable (all : arranging ⊆ plain) (late : ∀ r, Good (Py20305.handleLateDiscovery r))
  (expiring : ∀ derc lfdi, Good (respondFor derc .expired lfdi))

include all

theorem performAny {c : Cmd} (listed : c.effect ∈ arranging) : Good (Py20305.perform c) :=
  good.quiet (Within.perform (all listed))

theorem transition (mrid : Mrid) (st : EventState) : Good (transition mrid st) :=
  good.quiet ((transition_within mrid st).widen (List.Subset.trans (by decide) all) (by decide))

theorem hold (refs : List Ref) : Good (Py20305.perform (.hold refs)) :=
  good.performAny all (by simp [Cmd.effect])

theorem supersedeSilent (map : ProgramDevices) (result : SupersessionResult) :
    Good (Py20305.supersede map result) :=
  good.supersede (fun mrid st _ => good.transition all mrid st) (good.hold all)
    (fun marks => good.performAny all (by rw [marks]; decide)) map result

theorem knownControl (r : Ref) (derc : Dercontrol) : Good (knownControl r derc) := by
  refine good.bind (good.performAny all (by simp [Cmd.effect])) fun _ => good.get fun w => ?_
  split
  · refine good.bind ?_ fun _ => good.stopIfClosed
    exact good.handleCancellation (fun mrid st _ => good.transition all mrid st) r
  · exact good.pure false

include late in
theorem storeNew (p : Href) (derc : Dercontrol) (record : EventRecord) :
    Good (storeNew p derc record) := by
  refine good.get fun w => ?_
  dsimp only
  split
  · refine good.bind (good.performAny all (by simp [Cmd.effect])) fun _ => ?_
    refine good.bind ?_ fun _ => good.stopIfClosed
    exact good.postResponse (good.respond (by decide) (by decide)) _ _ _
  · refine good.bind (good.performAny all (by simp [Cmd.effect])) fun _ => ?_
    refine good.bind (good.perform (by simp [Cmd.effect])) fun _ => ?_
    refine good.bind ?_ fun _ => good.stopIfClosed
    exact good.introduce _ (late _)

include late expiring in
theorem newControl (p : Href) (primacy : Nat) (now : Int) (derc : Dercontrol)
    (start duration : Int) : Good (newControl p primacy now derc start duration) := by
  refine good.get fun w => ?_
  split
  · exact good.pure false
  · split
    · split
      · exact good.pure false
      · exact good.bind (good.postResponse expiring _ _ _) fun _ => good.stopIfClosed
    · exact good.storeNew all late _ _ _

include late expiring in
theorem processControl (p : Href) (primacy : Nat) (now : Int) (derc : Dercontrol) :
    Good (processControl p primacy now derc) := by
  refine good.bind ?_ fun offsets => good.get fun w => ?_
  · exact good.quiet ((effectiveOffsets_within p derc).mono (List.Subset.trans (by decide) all)
      (by decide))
  · split
    · exact good.knownControl all _ _
    · exact good.newControl all late expiring _ _ _ _ _ _

end Silent

/-- The loop over the served controls, from its rounds. -/
theorem processServed {primacy : Nat} {now : Int}
    (round : ∀ q derc, Good (Py20305.processControl q primacy now derc)) (ps : DerProgramState)
    (epoch i rounds : Nat) : Good (processServed ps epoch primacy now i rounds) := by
  induction rounds generalizing i with
  | zero => exact good.pure false
  | succ rounds ih =>
      refine good.get fun w => ?_
      split
      · exact good.pure false
      · refine good.bind (round _ _) fun stop => ?_
        split
        · exact good.pure true
        · exact ih (i + 1)

/-- What a poll does once it has read the program and the time. -/
theorem pollAt {p : Href} {primacy : Nat} {now : Int}
    (round : ∀ q derc, Good (Py20305.processControl q primacy now derc))
    (reconcile : ∀ ps epoch, Good (Py20305.reconcileServed ps epoch now))
    (finish : Good (finishPoll p now)) (ps : DerProgramState) (epoch rounds : Nat) :
    Good (Py20305.processServed ps epoch primacy now 0 rounds >>= fun stop =>
      if stop then Pure.pure () else Py20305.reconcileServed ps epoch now >>= fun stop =>
        if stop then Pure.pure () else finishPoll p now) := by
  refine good.bind (good.processServed round _ _ _ _) fun stop => ?_
  split
  · exact good.pure ()
  · refine good.bind (reconcile _ _) fun stop => ?_
    split
    · exact good.pure ()
    · exact finish

/-- The control poll, from its rounds, rule p) and its end. -/
theorem processControls {p : Href} {room : Nat}
    (round : ∀ primacy now derc, ∀ q, Good (Py20305.processControl q primacy now derc))
    (reconcile : ∀ ps epoch now, Good (Py20305.reconcileServed ps epoch now))
    (finish : ∀ now, Good (finishPoll p now)) : Good (Py20305.processControls p room) := by
  refine good.unlessClosed (good.get fun w => ?_)
  split
  · exact good.pure ()
  · exact good.pollAt (fun _ _ => round _ _ _ _) (fun _ _ => reconcile _ _ _) (finish _) _ _ _

/-- Every task has the property, where everything but dispatching has. -/
theorem body (all : arranging ⊆ plain) (late : ∀ r, Good (Py20305.handleLateDiscovery r))
    (expiring : ∀ derc lfdi, Good (respondFor derc .expired lfdi))
    (pruning : ∀ {c : Cmd}, c.effect = .prune → Good (Py20305.perform c))
    (waking : ∀ r, Good (Py20305.onActivation r)) {j : Job}
    (dispatching : ∀ r d, j = .dispatchAndReport r d → Good (Py20305.dispatchAndReport r d)) :
    Good j.body := by
  have moving : ∀ mrid st, st.isTerminal = true → Good (Py20305.transition mrid st) :=
    fun mrid st _ => good.transition all mrid st
  have holding := good.hold all
  have superseding := good.supersedeSilent all
  cases j with
  | processControls p room =>
      refine good.processControls (fun _ _ _ _ => good.processControl all late expiring _ _ _ _)
        (good.reconcileServed moving holding) fun now => ?_
      refine good.bind (good.runSupersession superseding) fun _ => good.unlessClosed ?_
      refine good.bind (pruning rfl) fun _ => good.bind (pruning rfl) fun _ => ?_
      exact good.bind (pruning rfl) fun _ => good.initial p
  | cancelProgram p => exact good.cancelProgram moving p
  | enterCommsLoss => exact good.enterCommsLoss
  | shutdown => exact good.perform (by decide)
  | timer callback r => exact good.fireTimer moving callback (waking r)
  | dispatchAndReport r d => exact dispatching r d rfl

end Composes

/-! ### What leaves the events alone -/

/-- The effects that touch no entry of the store and no event's state. -/
abbrev bystanders : List Effect :=
  [.refresh, .supersede, .outcome, .optOut, .offsets, .register, .unregister, .clearDefaults,
    .recordDefault, .boundary, .claim, .schedule, .cancelTimers, .spawn, .finishChild, .close,
    .control, .issue, .hold]

/-- `w'` has the events of `w`, each in the same state. -/
structure EventsKept (w w' : World) : Prop where
  entries : w'.store.events = w.store.events
  next : w'.store.next = w.store.next
  state : ∀ r, (w'.record r).state = (w.record r).state
  mrid : ∀ r, (w'.record r).mrid = (w.record r).mrid

namespace EventsKept

variable {w w' w'' : World}

theorem refl (w : World) : EventsKept w w := ⟨rfl, rfl, fun _ => rfl, fun _ => rfl⟩

theorem trans (first : EventsKept w w') (second : EventsKept w' w'') : EventsKept w w'' where
  entries := second.entries.trans first.entries
  next := second.next.trans first.next
  state := fun r => (second.state r).trans (first.state r)
  mrid := fun r => (second.mrid r).trans (first.mrid r)

theorem of_store (same : w'.store = w.store) : EventsKept w w' := by
  refine ⟨?_, ?_, fun r => ?_, fun r => ?_⟩ <;> simp only [Core.record, same]

theorem get? (kept : EventsKept w w') (mrid : Mrid) : w'.store.get? mrid = w.store.get? mrid := by
  unfold EventStore.get?
  rw [kept.entries]

/-- A change in place that names neither the state nor the mRID. -/
theorem withRecord (w : World) (r : Ref) {change : EventRecord → EventRecord}
    (state : ∀ record, (change record).state = record.state)
    (mrid : ∀ record, (change record).mrid = record.mrid) :
    EventsKept w { w with toCore := w.toCore.withRecord r change } := by
  have one : ∀ q, ((w.toCore.withRecord r change).record q).state = (w.record q).state ∧
      ((w.toCore.withRecord r change).record q).mrid = (w.record q).mrid := by
    intro q
    unfold Core.record Core.withRecord
    by_cases same : q = r
    · subst same
      rw [EventStore.object_update_self]
      exact ⟨state _, mrid _⟩
    · rw [EventStore.object_update_ne _ _ same]
      exact ⟨rfl, rfl⟩
  exact ⟨rfl, rfl, fun q => (one q).1, fun q => (one q).2⟩

end EventsKept

/-- Making tasks changes only what is known about tasks. -/
theorem spawn_spec (w : Core) (r : Ref) (devices : List Href) :
    ∃ children spawned nextPid, devices.foldl (fun w d => w.spawnChild r d) w =
      { w with children := children, spawned := spawned, nextPid := nextPid } := by
  induction devices generalizing w with
  | nil => exact ⟨w.children, w.spawned, w.nextPid, rfl⟩
  | cons d rest ih => exact ih (w.spawnChild r d)

/-- What making tasks leaves as it is. -/
structure Spawned (w w' : Core) : Prop where
  store : w'.store = w.store
  clock : w'.clock = w.clock
  offsets : w'.offsets = w.offsets
  discovered : w'.discovered = w.discovered
  responses : w'.responses = w.responses

theorem spawned (w : Core) (r : Ref) (devices : List Href) :
    Spawned w (devices.foldl (fun w d => w.spawnChild r d) w) := by
  obtain ⟨_, _, _, made⟩ := spawn_spec w r devices
  rw [made]
  exact ⟨rfl, rfl, rfl, rfl, rfl⟩

theorem bystander_exec {c : Cmd} (listed : c.effect ∈ bystanders) (w : World) :
    EventsKept w (World.exec c w) := by
  cases c with
  | upsert | setState | pruneStore | pruneOffsets | pruneResponses =>
      simp [Cmd.effect] at listed
  | refresh r | addSuperseded r | addSupersededModes r | addApplied r | addRejected r
  | setOptedOut r =>
      refine EventsKept.withRecord w r ?_ ?_ <;> exact fun _ => rfl
  | spawn r devices => exact EventsKept.of_store (spawned _ _ _).store
  | _ => exact EventsKept.of_store rfl

/-- An answer goes to a live task, and changes only what is known about
responses. -/
theorem reply_spec {w w' : World} {p : Pid} {r : Request} {a : r.Answer}
    (replied : w.reply p r a = some w') :
    p ∉ w.cancelled ∧ ∃ responses posted,
      w' = { w with responses := responses, current := p, posted := posted } := by
  unfold World.reply at replied
  split at replied
  · cases replied
  · rename_i live
    obtain ⟨core, answered, rfl⟩ := Option.map_eq_some_iff.mp replied
    obtain ⟨responses, rfl⟩ : ∃ responses, core = { w.toCore with responses := responses } := by
      refine ⟨core.responses, ?_⟩
      cases r <;> simp only [Core.reply] at answered <;> try split_ifs at answered
      all_goals
        cases answered
        rfl
    exact ⟨live, responses, _, rfl⟩

/-- Only a response that landed is remembered as posted. -/
theorem reply_posted {w w' : World} {p : Pid} {r : Request} {a : r.Answer}
    (replied : w.reply p r a = some w') :
    w'.posted = w.posted ∨ ∃ key at_, r = .post key at_ ∧ w'.posted = w.posted ++ [key] := by
  unfold World.reply at replied
  split at replied
  · cases replied
  · obtain ⟨core, -, rfl⟩ := Option.map_eq_some_iff.mp replied
    cases r with
    | post key at_ =>
        cases a with
        | false => exact .inl rfl
        | true => exact .inr ⟨key, at_, rfl, rfl⟩
    | _ => exact .inl rfl

theorem reply_store {w w' : World} {p : Pid} {r : Request} {a : r.Answer}
    (replied : w.reply p r a = some w') : w'.store = w.store := by
  obtain ⟨-, _, _, rfl⟩ := reply_spec replied
  rfl

theorem answered_store (w : World) (r : Request) (a : r.Answer) :
    (w.answered r a).store = w.store := by
  unfold World.answered
  cases replied : w.reply w.current r a with
  | none => rfl
  | some w' => exact reply_store replied

/-- Starting a task changes only what is known about tasks. -/
theorem begins_spec {w w' : World} {p : Pid} {j : Job} (begun : w.begins p j = some w') :
    ∃ sleeping spawned nextPid, w' =
      { w with sleeping := sleeping, spawned := spawned, nextPid := nextPid, current := p } := by
  obtain ⟨core, started, rfl⟩ := Option.map_eq_some_iff.mp begun
  cases j with
  | timer callback r =>
      simp only [Core.begins] at started
      split at started
      · cases started
      · split_ifs at started
        cases started
        exact ⟨_, _, _, rfl⟩
  | _ =>
      simp only [Core.begins] at started
      split_ifs at started
      cases started
      exact ⟨_, _, _, rfl⟩

theorem begins_store {w w' : World} {p : Pid} {j : Job} (begun : w.begins p j = some w') :
    w'.store = w.store := by
  obtain ⟨_, _, _, rfl⟩ := begins_spec begun
  rfl

theorem childEffects_subset : childEffects ⊆ bystanders := by decide

/-- One child of a dispatch leaves the events alone. -/
theorem child_kept (env : Answers) {w w' : World} {p : Pid} {r : Ref} {d : Href}
    (begun : w.begins p (.dispatchAndReport r d) = some w') :
    EventsKept w ((dispatchAndReport r d).final (World.leafOracle env) w') := by
  refine Co.eval_keeps (World.leafOracle env) (EventsKept w)
    (fun c v listed h => h.trans (bystander_exec (childEffects_subset listed) v))
    (fun r v _ h => h.trans (EventsKept.of_store ?_))
    (dispatchAndReport_within r d)
    (EventsKept.of_store (begins_store begun))
  cases r with
  | join => rfl
  | _ => exact answered_store v _ _

theorem runChildren_kept (env : Answers) (parent : Pid) (w : World) :
    EventsKept w (World.runChildren env parent w) := by
  have done : EventsKept w (w.spawned.entries.foldl (World.runChild env) w) := by
    refine List.foldlRecOn _ _ (EventsKept.refl w) fun v kept e _ => ?_
    unfold World.runChild
    cases begun : v.begins e.1 (.dispatchAndReport e.2.1 e.2.2) with
    | none => exact kept
    | some v' => exact kept.trans (child_kept env begun)
  rw [World.runChildren_eq]
  exact ⟨done.entries, done.next, done.state, done.mrid⟩

theorem oracle_kept (env : Answers) (r : Request) (w : World) :
    EventsKept w (World.oracle env r w).2 := by
  cases r with
  | join => exact runChildren_kept env w.current w
  | _ => exact EventsKept.of_store (answered_store w _ _)

/-- A coroutine of bystanders that runs alone leaves the events alone. -/
theorem eval_kept {α : Type} (env : Answers) {m : Proc α} {es : List Effect} {ws : List Await}
    {E : Prop} (within : Within m es ws E) (listed : es ⊆ bystanders) (w : World) :
    EventsKept w (m.eval (World.oracle env) w).2 :=
  Co.eval_keeps (World.oracle env) (EventsKept w)
    (fun _ v member h => h.trans (bystander_exec (listed member) v))
    (fun r v _ h => h.trans (oracle_kept env r v)) within (EventsKept.refl w)

/-! ### What every run keeps -/

theorem exec_clock (c : Cmd) (w : World) : (World.exec c w).clock = w.clock := by
  cases c with
  | spawn r devices => exact (spawned _ _ _).clock
  | _ => rfl

/-- Tasks do not move the clocks. -/
theorem step_clock {l : Label processor} {c c' : Config ProcSig} (task : l.pid ≠ none)
    (stepped : processor.step l c = some c') : c'.state.clock = c.state.clock := by
  refine System.step_keeps (fun v : World => v.clock = c.state.clock)
    (fun a v same => (exec_clock a v).trans same) ?_ ?_ task stepped rfl
  · intro p j v v' begun same
    obtain ⟨_, _, _, rfl⟩ := begins_spec begun
    exact same
  · intro p r x v v' replied same
    obtain ⟨-, _, _, rfl⟩ := reply_spec replied
    exact same

/-- No clock goes back. -/
def Forward (w : World) (_ : Label processor) (w' : World) : Prop := ∀ s, w.clock s ≤ w'.clock s

theorem forward_of_step {l : Label processor} {c c' : Config ProcSig} (task : l.pid ≠ none)
    (stepped : processor.step l c = some c') : Forward c.state l c'.state :=
  fun s => (congrFun (step_clock task stepped) s).ge

theorem forward_of_exec {ls : List (Label processor)} {c c' : Config ProcSig}
    (tasks : ∀ l ∈ ls, l.pid ≠ none) (executed : processor.exec c ls = some c') :
    processor.Run Forward c c' :=
  processor.run_of_exec_meeting (fun _ => True)
    (fun l member _ _ _ stepped => ⟨forward_of_step (tasks l member) stepped, trivial⟩) trivial
    executed

/-- Every entry of the store is a record made before, under its own mRID. -/
def EventStore.Keyed (store : EventStore) : Prop :=
  ∀ mrid r, store.get? mrid = some r → r < store.next ∧ (store.object r).mrid = mrid

theorem EventStore.keyed_upsert {store : EventStore} (keyed : store.Keyed) (record : EventRecord) :
    (store.upsert record).Keyed := by
  intro mrid r found
  simp only [EventStore.get?, EventStore.upsert, Dict.get?_set] at found ⊢
  split at found
  · rename_i same
    cases found
    simp [same]
  · obtain ⟨made, own⟩ := keyed mrid r found
    refine ⟨Nat.lt_succ_of_lt made, ?_⟩
    rw [Function.update_of_ne (Nat.ne_of_lt made)]
    exact own

/-- The entries of the store are different records. -/
theorem nodup_allActiveStates {store : EventStore} (keyed : store.Keyed) :
    store.allActiveStates.Nodup := by
  refine List.Nodup.filter _ ?_
  refine (List.nodup_map_iff_inj_on (f := Prod.snd) ?_).mpr ?_
  · exact store.events.nodup.of_map _
  · intro e member e' member' same
    have own := (keyed e.1 e.2 ((Dict.mem_entries_iff _ _ _).mp member)).2
    have own' := (keyed e'.1 e'.2 ((Dict.mem_entries_iff _ _ _).mp member')).2
    rw [same, own'] at own
    exact Prod.ext own.symm same

theorem EventsKept.keyed {w w' : World} (kept : EventsKept w w') (keyed : w.store.Keyed) :
    w'.store.Keyed := by
  intro mrid r found
  rw [kept.get?] at found
  obtain ⟨made, own⟩ := keyed mrid r found
  exact ⟨kept.next.symm ▸ made, (kept.mrid r).trans own⟩

theorem exec_keyed (c : Cmd) (w : World) (keyed : w.store.Keyed) :
    (World.exec c w).store.Keyed := by
  by_cases listed : c.effect ∈ bystanders
  · exact (bystander_exec listed w).keyed keyed
  · cases c with
    | upsert record => exact EventStore.keyed_upsert keyed record
    | setState r st =>
        intro mrid q found
        obtain ⟨made, own⟩ := keyed mrid q found
        exact ⟨made, (mrid_setState w r q st).trans own⟩
    | pruneStore now => exact fun mrid r found => keyed mrid r (EventStore.get?_pruneExpired found)
    | pruneOffsets | pruneResponses | issue => exact keyed
    | _ => simp [Cmd.effect] at listed

/-- In every state a run reaches, the store is keyed. -/
theorem keyed_of_run {ok : World → Label processor → World → Prop} {c c' : Config ProcSig}
    (run : processor.Run ok c c') (keyed : c.state.store.Keyed) : c'.state.store.Keyed := by
  refine run.keeps (fun w : World => w.store.Keyed) exec_keyed ?_ ?_ ?_ keyed
  · intro p j w w' begun before
    exact (EventsKept.of_store (begins_store begun)).keyed before
  · intro p r a w w' replied before
    exact (EventsKept.of_store (reply_store replied)).keyed before
  · intro e w w' moved before
    cases moved
    cases e <;> exact before

theorem Core.Fresh.keyed {w : Core} (fresh : w.Fresh) : (start w).state.store.Keyed := by
  intro mrid r found
  change w.store.get? mrid = some r at found
  rw [fresh.store] at found
  cases found

end Py20305
