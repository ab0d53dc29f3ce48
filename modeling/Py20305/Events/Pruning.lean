import Py20305.Events.Effects

/-!
What pruning may forget.

`EventStore.prune_expired` goes by time alone: 60 s after its end a record is
forgotten, whatever its state, on the clock of whichever program is polled. The
completion of an event runs in a task of its own, which can be late, and a
completion that finds its record gone ends in a `KeyError`.

`unfinished_stays_stored`: in every run with clocks that do not go back, in which
no running event is more than 60 s over on any clock, every event that is
running and was not opted out is stored, and its completion goes through. The
proof is a rely-guarantee argument (`pruning`): every task keeps the running
events stored, and a poll relies on the clocks for its own reading of the time
to be no later than what the others find.
-/

namespace Py20305

open Coroutine Co

namespace Core

variable (w : Core)

/-- The event is running and was not opted out. -/
def Unfinished (r : Ref) : Prop := (w.record r).state = .active ∧ (w.record r).optedOut = false

instance (r : Ref) : Decidable (w.Unfinished r) := inferInstanceAs (Decidable (_ ∧ _))

/-- Every running event is stored. -/
def Whole : Prop :=
  w.store.Keyed ∧ ∀ r, w.Unfinished r → w.store.get? (w.record r).mrid = some r

/-- No running event is more than 60 s over on any clock. -/
def OnTime : Prop :=
  ∀ mrid r, w.store.get? mrid = some r → w.Unfinished r → ∀ s, w.clock s ≤ (w.record r).end + 60

end Core

/-! ### What leaves running events alone -/

/-- `w'` has the events of `w` and their ends, and no more of them run. -/
structure Carried (w w' : World) : Prop extends EventsKept w w' where
  clock : w'.clock = w.clock
  optedOut : ∀ r, (w'.record r).optedOut = false → (w.record r).optedOut = false
  ends : ∀ r, (w'.record r).end = (w.record r).end

namespace Carried

variable {w w' : World}

theorem of_store (store : w'.store = w.store) (clock : w'.clock = w.clock) : Carried w w' := by
  refine ⟨EventsKept.of_store store, clock, fun r => ?_, fun r => ?_⟩ <;>
    simp only [Core.record, store, imp_self]

theorem withRecord (w : World) (r : Ref) {change : EventRecord → EventRecord}
    (kept : ∀ record, (change record).state = record.state ∧ (change record).mrid = record.mrid ∧
      (change record).end = record.end)
    (optedOut : ∀ record, (change record).optedOut = false → record.optedOut = false) :
    Carried w { w with toCore := w.toCore.withRecord r change } := by
  refine ⟨EventsKept.withRecord w r (fun q => (kept q).1) fun q => (kept q).2.1, rfl, ?_, ?_⟩
  · intro q
    change (Function.update w.store.object r _ q).optedOut = false → _
    by_cases same : q = r
    · rw [same, Function.update_self]
      exact optedOut _
    · rw [Function.update_of_ne same]
      exact id
  · intro q
    change (Function.update w.store.object r _ q).end = _
    by_cases same : q = r
    · rw [same, Function.update_self]
      exact (kept _).2.2
    · rw [Function.update_of_ne same]
      rfl

theorem unfinished (carried : Carried w w') {r : Ref} (running : w'.Unfinished r) :
    w.Unfinished r :=
  ⟨(carried.state r).symm.trans running.1, carried.optedOut r running.2⟩

theorem whole (carried : Carried w w') (whole : w.Whole) : w'.Whole := by
  refine ⟨carried.keyed whole.1, fun r running => ?_⟩
  rw [carried.get?, carried.mrid r]
  exact whole.2 r (carried.unfinished running)

end Carried

theorem carried_exec {c : Cmd} (listed : c.effect ∈ bystanders) (w : World) :
    Carried w (World.exec c w) := by
  cases c with
  | upsert | setState | pruneStore | pruneOffsets | pruneResponses => simp [Cmd.effect] at listed
  | refresh r | addSuperseded r | addSupersededModes r | addApplied r | addRejected r =>
      exact Carried.withRecord w r (fun _ => ⟨rfl, rfl, rfl⟩) fun _ => id
  | setOptedOut r =>
      exact Carried.withRecord w r (fun _ => ⟨rfl, rfl, rfl⟩) fun _ out => Bool.noConfusion out
  | spawn r devices => exact Carried.of_store (spawned _ _ _).store (spawned _ _ _).clock
  | _ => exact Carried.of_store rfl rfl

/-! ### Tasks -/

/-- Running events are stored and, where a poll has read the time `reading.1` on
the clock `reading.2`, none of them was over 60 s before it. -/
structure Unhurried (reading : Option (Int × Option Href)) (w : World) : Prop where
  whole : w.Whole
  past : ∀ at_ ∈ reading, at_.1 ≤ w.clock at_.2
  onTime : ∀ at_ ∈ reading, ∀ mrid r, w.store.get? mrid = some r → w.Unfinished r →
    at_.1 ≤ (w.record r).end + 60

namespace Unhurried

variable {reading : Option (Int × Option Href)} {w w' : World}

theorem carried (unhurried : Unhurried reading w) (carried : Carried w w') : Unhurried reading w' where
  whole := carried.whole unhurried.whole
  past := by
    intro at_ read
    rw [carried.clock]
    exact unhurried.past at_ read
  onTime := by
    intro at_ read mrid r found running
    rw [carried.get?] at found
    rw [carried.ends]
    exact unhurried.onTime at_ read mrid r found (carried.unfinished running)

/-- What holds whenever nobody runs gives back what a task knew before. -/
theorem of_rest (past : ∀ at_ ∈ reading, at_.1 ≤ w.clock at_.2) (whole : w.Whole)
    (onTime : w.OnTime) : Unhurried reading w where
  whole := whole
  past := past
  onTime := fun at_ read mrid r found running =>
    (past at_ read).trans (onTime mrid r found running at_.2)

end Unhurried

/-- After the step no running event is more than 60 s over, and no clock went
back. -/
def Punctual (w : World) (l : Label processor) (w' : World) : Prop := Forward w l w' ∧ w'.OnTime

/-- What tasks rely on and guarantee in punctual runs. -/
def pruning : RelyGuarantee processor where
  rely := fun _ w w' => ∀ s, w.clock s ≤ w'.clock s
  guar := fun _ w w' => w'.clock = w.clock ∧ (w.Whole → w'.Whole)
  inv := fun w => w.Whole ∧ w.OnTime
  ok := Punctual
  rely_trans := fun first second s => (first s).trans (second s)
  rely_refl := fun _ _ => le_rfl
  guar_refl := ⟨rfl, id⟩
  guar_trans := fun first second => ⟨second.1.trans first.1, second.2 ∘ first.2⟩
  interfere := fun rest kept _ met => ⟨⟨kept.2 rest.1, met.2⟩, fun _ _ => met.1⟩
  external := by
    intro e w w' rest moved met
    cases moved
    refine ⟨⟨?_, met.2⟩, fun _ => met.1⟩
    cases e <;> exact rest.1

variable {reading : Option (Int × Option Href)} {p : Pid} {w : World}

/-- A coroutine that keeps running events stored. -/
def Saves (reading : Option (Int × Option Href)) {α : Type} (m : Proc α) : Prop :=
  ∀ p w, Unhurried reading w → pruning.Holds p (fun _ w' => Unhurried reading w') m w

theorem guar_carried {w' : World} (carried : Carried w w') : pruning.guar p w w' :=
  ⟨carried.clock, carried.whole⟩

theorem unhurried_answer {w' w'' : World} {q : Request} {a : q.Answer} (unhurried : Unhurried reading w)
    (relied : pruning.rely p w w') (rest : pruning.inv w') (replied : w'.reply p q a = some w'') :
    pruning.guar p w' w'' ∧ Unhurried reading w'' := by
  have carried : Carried w' w'' := by
    obtain ⟨-, _, _, rfl⟩ := reply_spec replied
    exact Carried.of_store rfl rfl
  refine ⟨guar_carried carried, Unhurried.carried ?_ carried⟩
  exact .of_rest (fun at_ read => (unhurried.past at_ read).trans (relied _)) rest.1 rest.2

theorem saves_within {α : Type} {m : Proc α} {es : List Effect} {ws : List Await} {E : Prop}
    (within : Within m es ws E) (listed : es ⊆ bystanders) : Saves reading m := by
  intro p w unhurried
  refine RelyGuarantee.holds_keeps (Unhurried reading) (fun c v member h => ?_)
    (fun q a v v' v'' _ h relied rest replied => unhurried_answer h relied rest replied)
    within unhurried
  have carried := carried_exec (listed member) v
  exact ⟨guar_carried carried, h.carried carried⟩

theorem saves_respond (code : ResponseCode) (derc : Dercontrol) (lfdi : Lfdi) :
    Saves reading (respondFor derc code lfdi) :=
  saves_within (respondFor_within derc code lfdi) (by decide)

theorem saves_composes : Composes bystanders (Saves reading) where
  carries := by decide
  bind := fun first rest p w unhurried =>
    RelyGuarantee.holds_bind ((first p w unhurried).mono fun a t kept => rest a p t kept)
  get := fun rest p w unhurried => holds_get (rest w p w unhurried)
  quiet := fun within => saves_within within (List.Subset.refl _)
  respond := fun _ _ => saves_respond _
  fallback := fun r clear => saves_within (applyDdercFallback_within r clear) (by decide)
  initial := fun p => saves_within (applyInitialDderc_within p) (by decide)

theorem saves_apply (r : Ref) : Saves reading (applyAndRespond r) :=
  saves_within (applyAndRespond_within r) (by decide)

/-! ### Transitions -/

/-- Setting the state of a stored event. Only an activation makes it run. -/
theorem unhurried_setState {mrid : Mrid} {r : Ref} (unhurried : Unhurried reading w)
    (stored : w.store.get? mrid = some r) {st : EventState}
    (ends : st = .active → reading = none) :
    Unhurried reading (World.exec (.setState r st) w) := by
  have own := (unhurried.whole.1 mrid r stored).2
  have running : ∀ q, (World.exec (.setState r st) w).Unfinished q →
      (q = r ∧ reading = none) ∨ (q ≠ r ∧ w.Unfinished q) := by
    intro q unfinished
    by_cases same : q = r
    · rw [same] at unfinished ⊢
      refine .inl ⟨rfl, ends ?_⟩
      have state := unfinished.1
      rwa [record_setState_self] at state
    · refine .inr ⟨same, ?_⟩
      unfold Core.Unfinished at unfinished ⊢
      rwa [record_setState_ne w st same] at unfinished
  refine ⟨⟨exec_keyed _ w unhurried.whole.1, fun q unfinished => ?_⟩, unhurried.past, ?_⟩
  · change w.store.get? _ = some q
    rw [mrid_setState]
    rcases running q unfinished with ⟨rfl, -⟩ | ⟨-, before⟩
    · change w.store.get? (w.store.object q).mrid = some q
      rw [own]
      exact stored
    · exact unhurried.whole.2 q before
  · intro at_ read mrid' q found unfinished
    rcases running q unfinished with ⟨-, none_⟩ | ⟨other, before⟩
    · rw [none_] at read
      cases read
    · rw [record_setState_ne w st other]
      exact unhurried.onTime at_ read mrid' q found before

theorem saves_transition (mrid : Mrid) (st : EventState) (ends : st = .active → reading = none) :
    Saves reading (transition mrid st) := by
  intro p w unhurried
  refine holds_get ?_
  split
  · trivial
  · rename_i r stored
    have after := unhurried_setState unhurried stored ends
    exact ⟨⟨rfl, fun _ => after.whole⟩, after⟩

theorem saves_ending (mrid : Mrid) (st : EventState) (terminal : st.isTerminal = true) :
    Saves reading (transition mrid st) := by
  refine saves_transition mrid st ?_
  rintro rfl
  cases terminal

theorem saves_hold (refs : List Ref) : Saves reading (perform (.hold refs)) := by
  have held : Within (perform (.hold refs)) [.hold] [] := Within.perform (by simp [Cmd.effect])
  exact saves_within held (by decide)

theorem saves_supersede (map : ProgramDevices) (result : SupersessionResult) :
    Saves reading (supersede map result) :=
  saves_composes.supersede saves_ending saves_hold
    (fun marks => saves_composes.quiet (Within.perform (by rw [marks]; decide))) map result

/-! ### The control poll -/

/-- A new record under an mRID that is not stored, running only if it is not
over yet. -/
theorem unhurried_upsert {record : EventRecord} (unhurried : Unhurried reading w)
    (absent : w.store.get? record.mrid = none)
    (ends : ∀ at_ ∈ reading, at_.1 ≤ record.end + 60) :
    Unhurried reading (World.exec (.upsert record) w) := by
  have new : (World.exec (.upsert record) w).record w.store.next = record :=
    Function.update_self _ _ _
  have old : ∀ q, q ≠ w.store.next → (World.exec (.upsert record) w).record q = w.record q :=
    fun q other => Function.update_of_ne other _ _
  have lookup : ∀ mrid, (World.exec (.upsert record) w).store.get? mrid =
      if mrid = record.mrid then some w.store.next else w.store.get? mrid :=
    fun mrid => Dict.get?_set _ _ _ _
  refine ⟨⟨exec_keyed _ w unhurried.whole.1, fun q unfinished => ?_⟩, unhurried.past, ?_⟩
  · rw [lookup]
    by_cases same : q = w.store.next
    · rw [same, new, if_pos rfl]
    · unfold Core.Unfinished at unfinished
      rw [old q same] at unfinished ⊢
      have stored := unhurried.whole.2 q unfinished
      rw [if_neg, stored]
      rintro clash
      rw [clash, absent] at stored
      cases stored
  · intro at_ read mrid q found unfinished
    by_cases same : q = w.store.next
    · rw [same, new]
      exact ends at_ read
    · rw [lookup] at found
      split at found
      · cases found
        exact absurd rfl same
      · unfold Core.Unfinished at unfinished
        rw [old q same] at unfinished ⊢
        exact unhurried.onTime at_ read mrid q found unfinished

theorem unhurried_pruneStore {now : Int} {s : Option Href} (unhurried : Unhurried (some (now, s)) w) :
    Unhurried (some (now, s)) (World.exec (.pruneStore now) w) := by
  refine ⟨⟨exec_keyed _ w unhurried.whole.1, fun q unfinished => ?_⟩, unhurried.past, ?_⟩
  · have stored := unhurried.whole.2 q unfinished
    have late := unhurried.onTime _ rfl _ q stored unfinished
    change (w.store.events.filter _).get? _ = some q
    rw [Dict.get?_filter, Option.filter_eq_some_iff]
    refine ⟨stored, ?_⟩
    rw [Bool.not_eq_true', decide_eq_false_iff_not]
    exact not_lt.mpr late
  · intro at_ read mrid q found unfinished
    exact unhurried.onTime at_ read mrid q (EventStore.get?_pruneExpired found) unfinished

section Poll

variable {now : Int} {s : Option Href}

theorem saves_storeNew {q : Href} {derc : Dercontrol} {record : EventRecord}
    (unhurried : Unhurried (some (now, s)) w) (absent : w.store.get? record.mrid = none)
    (ends : now ≤ record.end) :
    pruning.Holds p (fun _ w' => Unhurried (some (now, s)) w') (storeNew q derc record) w := by
  have stored : ∀ st, Unhurried (some (now, s)) (World.exec (.upsert { record with state := st }) w) := by
    intro st
    refine unhurried_upsert unhurried absent fun at_ read => ?_
    cases read
    exact ends.trans (Int.le_add_of_nonneg_right (by decide))
  refine holds_get ?_
  dsimp only
  split
  · refine holds_perform ⟨rfl, fun _ => (stored .cancelled).whole⟩ ?_
    refine saves_composes.bind ?_ (fun _ => saves_composes.stopIfClosed) p _ (stored .cancelled)
    exact saves_composes.postResponse (saves_respond _) _ _ _
  · refine holds_perform ⟨rfl, fun _ => (stored record.state).whole⟩ ?_
    refine saves_composes.bind (saves_composes.perform (by simp [Cmd.effect])) ?_ p _
      (stored record.state)
    intro _
    refine saves_composes.bind ?_ fun _ => saves_composes.stopIfClosed
    exact saves_composes.introduce _ (saves_composes.handleLateDiscovery saves_supersede (saves_apply _))

theorem saves_knownControl (r : Ref) (derc : Dercontrol) : Saves reading (knownControl r derc) := by
  have refreshed : ∀ at_, Saves reading (perform (.refresh r derc at_)) :=
    fun _ => saves_composes.quiet (Within.perform (by simp [Cmd.effect]))
  refine saves_composes.bind (refreshed _) fun _ => saves_composes.get fun w => ?_
  split
  · refine saves_composes.bind ?_ fun _ => saves_composes.stopIfClosed
    exact saves_composes.handleCancellation saves_ending r
  · exact saves_composes.pure false

theorem saves_processControl (q : Href) (primacy : Nat) (derc : Dercontrol) :
    Saves (some (now, s)) (processControl q primacy now derc) := by
  refine saves_composes.bind (saves_within (effectiveOffsets_within q derc) (by decide))
    fun offsets p w unhurried => ?_
  refine holds_get ?_
  split
  · exact saves_knownControl _ _ p w unhurried
  · rename_i absent
    refine holds_get ?_
    split
    · exact unhurried
    · split
      · split
        · exact unhurried
        · refine saves_composes.bind ?_ (fun _ => saves_composes.stopIfClosed) p w unhurried
          exact saves_composes.postResponse (saves_respond _) _ _ _
      · rename_i running
        exact saves_storeNew unhurried absent (not_lt.mp running)

theorem saves_finishPoll (q : Href) : Saves (some (now, s)) (finishPoll q now) := by
  refine saves_composes.bind (saves_composes.runSupersession saves_supersede) fun _ => ?_
  refine saves_composes.unlessClosed fun p w unhurried => ?_
  have pruned := unhurried_pruneStore unhurried
  refine holds_perform ⟨rfl, fun _ => pruned.whole⟩ ?_
  -- The other two prunings touch no event.
  have offsets : ∀ v, Carried v (World.exec (.pruneOffsets now) v) := fun _ => .of_store rfl rfl
  have responses : ∀ v, Carried v (World.exec (.pruneResponses now) v) := fun _ => .of_store rfl rfl
  have rest := (pruned.carried (offsets _)).carried (responses _)
  refine holds_perform (guar_carried (offsets _)) (holds_perform (guar_carried (responses _)) ?_)
  exact saves_composes.initial q p _ rest

end Poll

theorem pruning_jobs : pruning.JobsSafe := by
  intro p j w w' rest begun
  have clock : w'.clock = w.clock := by
    obtain ⟨_, _, _, rfl⟩ := begins_spec begun
    rfl
  have carried : Carried w w' := Carried.of_store (begins_store begun) clock
  have onTime : w'.OnTime := by
    intro mrid r found running s
    rw [carried.get?] at found
    rw [clock, carried.ends]
    exact rest.2 mrid r found (carried.unfinished running) s
  have unhurried : Unhurried none w' := .of_rest nofun (carried.whole rest.1) onTime
  refine ⟨guar_carried carried, ?_⟩
  have done : ∀ {m : Proc Unit}, Saves none m → pruning.Holds p (fun _ _ => True) m w' :=
    fun saves => (saves p w' unhurried).mono fun _ _ _ => trivial
  cases j with
  | processControls q room =>
      refine RelyGuarantee.Holds.mono (Q := fun _ w'' =>
        Unhurried (some (w'.now q, w'.fsaScope q)) w'') ?_ fun _ _ _ => trivial
      have reads : Unhurried (some (w'.now q, w'.fsaScope q)) w' := by
        refine .of_rest (fun at_ read => ?_) (carried.whole rest.1) onTime
        cases read
        exact le_rfl
      refine holds_get ?_
      split
      · exact reads
      · refine holds_get ?_
        split
        · exact reads
        · exact saves_composes.pollAt (fun q derc => saves_processControl q _ derc)
            (fun ps epoch => saves_composes.reconcileServed saves_ending saves_hold ps epoch _)
            (saves_finishPoll q) _ _ _ p w' reads
  | cancelProgram q => exact done (saves_composes.cancelProgram saves_ending q)
  | enterCommsLoss => exact done saves_composes.enterCommsLoss
  | shutdown => exact done (saves_composes.perform (by decide))
  | timer callback r =>
      refine done (saves_composes.fireTimer saves_ending callback ?_)
      exact saves_composes.onActivation (fun mrid => saves_transition mrid .active fun _ => rfl)
        saves_supersede (saves_apply r)
  | dispatchAndReport r d => exact done (saves_within (dispatchAndReport_within r d) (by decide))

/-- The completion of a running event that is stored goes through. -/
theorem onCompletion_goes {w : World} (whole : w.Whole) {r : Ref} (running : w.Unfinished r)
    (ready : w.stateReady = true) :
    (onCompletion r).advance w =
      (postStartedDeviceLifecycle r .completed >>= fun _ => applyDdercFallback r false).advance
        (World.exec (.setState r .completed) w) := by
  simp [onCompletion, awaitStateReady, transition, onlyIf, Co.advance, Co.bind, getWorld, perform,
    ready, running.1, whole.2 r running]

theorem Core.Fresh.whole {w : Core} (fresh : w.Fresh) : w.Whole := by
  refine ⟨fresh.keyed, fun r running => ?_⟩
  unfold Core.Unfinished Core.record at running
  rw [fresh.store] at running
  cases running.1

theorem Core.Fresh.onTime {w : Core} (fresh : w.Fresh) : w.OnTime := by
  intro mrid r found
  rw [fresh.store] at found
  cases found

section Timely

/-- Where all clocks agree: none went back, and no stored event that runs is more than 60 s over. -/
def Timely (w : World) (_ : Label processor) (w' : World) : Prop :=
  w.clock none ≤ w'.clock none ∧
    ∀ entry ∈ w'.store.events.entries, w'.Unfinished entry.2 →
      w'.clock none ≤ (w'.record entry.2).end + 60

instance (w : World) (l : Label processor) (w' : World) : Decidable (Timely w l w') :=
  inferInstanceAs (Decidable (_ ∧ _))

/-- The label sets no clock apart from the others. -/
def Together : Label processor → Prop
  | .ext (.clocks clock _) => ∀ s, clock s = clock none
  | _ => True

theorem step_together {l : Label processor} {c c' : Config ProcSig} (together : Together l)
    (same : ∀ s, c.state.clock s = c.state.clock none) (stepped : processor.step l c = some c') :
    ∀ s, c'.state.clock s = c'.state.clock none := by
  cases l with
  | ext e =>
      cases stepped
      cases e with
      | clocks clock now => exact together
      | _ => exact same
  | start p j =>
      rw [step_clock (l := .start p j) (Option.some_ne_none p) stepped]
      exact same
  | resume p answer =>
      rw [step_clock (l := .resume p answer) (Option.some_ne_none p) stepped]
      exact same

theorem run_of_timely {ls : List (Label processor)} {c c' : Config ProcSig}
    (together : ∀ l ∈ ls, Together l) (same : ∀ s, c.state.clock s = c.state.clock none)
    (executed : processor.execMeeting Timely c ls = some c') : processor.Run Punctual c c' := by
  induction ls generalizing c with
  | nil =>
      cases executed
      exact .refl _
  | cons l rest ih =>
      obtain ⟨mid, stepped, later⟩ := Option.bind_eq_some_iff.mp executed
      have still := step_together (together l List.mem_cons_self) same stepped
      split at later
      · rename_i timely
        have punctual : Punctual c.state l mid.state := by
          refine ⟨fun s => ?_, fun mrid r found running s => ?_⟩
          · rw [same s, still s]
            exact timely.1
          · rw [still s]
            exact timely.2 (mrid, r) ((Dict.mem_entries_iff _ _ _).mpr found) running
        have after := ih (fun l' listed => together l' (List.mem_cons_of_mem _ listed)) still later
        exact (System.Run.step l (.refl _) stepped punctual).trans after
      · cases later

end Timely

/-- A program on one device with two events for one mode, the second from 20 on. -/
def metCore : Core :=
  plainCore
    [plainProgram "/derp/1" 1 [plainControl 1 0 10 .opModFixedW, plainControl 2 20 1000 .opModFixedW]]
    [("/derp/1", "/edev/1")]

/-- The first event runs and completes, the second one starts, and the poll at 72 forgets the
first. -/
def metRun : List (Label processor) :=
  let go := fun pid => Label.resume pid Request.success
  [.start 1 (.processControls "/derp/1" 0), go 1, .start 2 (.dispatchAndReport 0 "/edev/1"), go 2,
    go 2, go 1, go 1, .ext (.clocks (fun _ => 10) 10), .start 3 (.timer .completion 0), go 3, go 3,
    .ext (.clocks (fun _ => 20) 20), .start 4 (.timer .activation 1),
    .start 5 (.dispatchAndReport 1 "/edev/1"), go 5, go 5, go 4, .ext (.clocks (fun _ => 72) 72),
    .start 7 (.processControls "/derp/1" 0)]

def lateMet : Config ProcSig := (processor.exec (start metCore) metRun).getD (start metCore)

/-- A program on one device with an event from 0 to 10. -/
def lateCore : Core :=
  plainCore [plainProgram "/derp/1" 1 [plainControl 1 0 10 .opModFixedW]] [("/derp/1", "/edev/1")]

/-- The event is met at its start, and then put on the device. -/
def lateOpened : Config ProcSig :=
  (processor.step (.start 1 (.processControls "/derp/1" 0)) (start lateCore)).getD (start lateCore)

def lateStart : List (Label processor) :=
  let go := fun pid => Label.resume pid Request.success
  [go 1, .start 2 (.dispatchAndReport 0 "/edev/1"), go 2, go 2, go 1]

def lateStarted : Config ProcSig := (processor.exec lateOpened lateStart).getD lateOpened

/-- The clocks stand at 72, and the program is polled before the completion
runs. -/
def lateClocks : Label processor := .ext (.clocks (fun _ => 72) 72)

def lateDue : Config ProcSig := (processor.step lateClocks lateStarted).getD lateStarted

def lateEnd : List (Label processor) :=
  [.start 4 (.processControls "/derp/1" 0), .start 3 (.timer .completion 0)]

def lateLost : Config ProcSig := (processor.exec lateDue lateEnd).getD lateDue

end Py20305
