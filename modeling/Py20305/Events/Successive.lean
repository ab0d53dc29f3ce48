import Py20305.Events.Alone

/-!
Successive events, rule m).

Where one event of a program ends as another starts, randomization must not open
a gap between them. The start of an event is set to the end of its predecessor
while the event is classified for the first time, and only then: from the
records stored by that moment.

`successive_seamless`: in every run of tasks one after the other, any two
successive events that are stored and have not ended meet, provided each control
is classified in order (`InOrder`): after the events it follows, unless they meet
as drawn, and with an interval the server does not change later.
-/

namespace Py20305

open Coroutine Co

namespace Core

variable (w : Core)

/-- The event is stored and has not ended. -/
def Standing (r : Ref) : Prop := w.store.Stored r ∧ (w.record r).state.isTerminal = false

/-- `q` is scheduled to start as `r` ends, in the same program. -/
structure Successive (r q : Ref) : Prop where
  different : r ≠ q
  first : w.Standing r
  second : w.Standing q
  program : (w.record r).programHref = (w.record q).programHref
  meets : (w.record r).derc.start + (w.record r).derc.duration = (w.record q).derc.start

/-- Successive events meet in effect. -/
def Seamless : Prop := ∀ r q, w.Successive r q → (w.record q).start = (w.record r).end

/-- The offsets a control gets when it is classified. -/
def offsetsFor (p : Href) (derc : Dercontrol) : Int × Int :=
  let drawn := (w.offsets.getOffsets derc (w.draws 0)).1
  (w.successiveOffset p derc drawn.1, drawn.2)

/-- The control is to be stored as an event that has not ended. -/
structure Takes (p : Href) (now : Int) (derc : Dercontrol) : Prop where
  absent : w.store.get? derc.mrid = none
  resumed : w.resumeAfter.any (derc.start + (w.offsetsFor p derc).1 ≤ ·) = false
  running : now ≤ derc.start + (w.offsetsFor p derc).1 + (derc.duration + (w.offsetsFor p derc).2)
  wanted : isServerCancelled derc = false

/-- A control that is classified in order. -/
structure InOrder (p : Href) (now : Int) (derc : Dercontrol) : Prop where
  /-- The server has not moved the event since it was stored. -/
  steady : ∀ r, w.store.get? derc.mrid = some r → (w.record r).state.isTerminal = false →
    derc.start = (w.record r).derc.start ∧ derc.duration = (w.record r).derc.duration
  /-- No event that follows it was stored before it, unless they meet as drawn. -/
  first : w.Takes p now derc → ∀ q, w.Standing q → (w.record q).programHref = p →
    derc.start + derc.duration = (w.record q).derc.start →
    (w.record q).start =
      derc.start + (w.offsetsFor p derc).1 + (derc.duration + (w.offsetsFor p derc).2)
  /-- The events it follows end together. -/
  agreed : w.Takes p now derc → ∀ r q, w.Standing r → w.Standing q →
    (w.record r).programHref = p → (w.record q).programHref = p →
    (w.record r).derc.start + (w.record r).derc.duration = derc.start →
    (w.record q).derc.start + (w.record q).derc.duration = derc.start →
    (w.record r).end = (w.record q).end

end Core

/-! ### What keeps successive events together -/

/-- The store is keyed and successive events meet. -/
def Joined (w : World) : Prop := w.store.Keyed ∧ w.Seamless

/-- No successive events but those of `w` stand in `w'`, where they are. -/
theorem Joined.of_fewer {w w' : World} (joined : Joined w) (keyed : w'.store.Keyed)
    (standing : ∀ r, w'.Standing r → w.Standing r)
    (same : ∀ r, w'.Standing r → (w'.record r).programHref = (w.record r).programHref ∧
      (w'.record r).derc.start = (w.record r).derc.start ∧
      (w'.record r).derc.duration = (w.record r).derc.duration ∧
      (w'.record r).start = (w.record r).start ∧ (w'.record r).end = (w.record r).end) :
    Joined w' := by
  refine ⟨keyed, fun r q next => ?_⟩
  obtain ⟨program, start, duration, -, ends⟩ := same r next.first
  obtain ⟨program', start', -, begins, -⟩ := same q next.second
  rw [begins, ends]
  refine joined.2 r q ⟨next.different, standing r next.first, standing q next.second, ?_, ?_⟩
  · rw [← program, ← program']
    exact next.program
  · rw [← start, ← duration, ← start']
    exact next.meets

theorem Joined.of_store {w w' : World} (joined : Joined w) (same : w'.store = w.store) :
    Joined w' := by
  refine joined.of_fewer (same ▸ joined.1) (fun r standing => ?_) fun r _ => ?_
  · unfold Core.Standing Core.record at standing ⊢
    rwa [same] at standing
  · simp only [Core.record, same, and_self]

/-- A change in place that moves nothing and revives nothing. -/
theorem Joined.withRecord {w : World} (joined : Joined w) (r : Ref)
    {change : EventRecord → EventRecord} (mrid : (change (w.record r)).mrid = (w.record r).mrid)
    (state : (change (w.record r)).state.isTerminal = false →
      (w.record r).state.isTerminal = false)
    (same : (w.record r).state.isTerminal = false →
      (change (w.record r)).programHref = (w.record r).programHref ∧
      (change (w.record r)).derc.start = (w.record r).derc.start ∧
      (change (w.record r)).derc.duration = (w.record r).derc.duration ∧
      (change (w.record r)).start = (w.record r).start ∧
      (change (w.record r)).end = (w.record r).end) :
    Joined { w with toCore := w.toCore.withRecord r change } := by
  have self : (w.toCore.withRecord r change).record r = change (w.record r) :=
    EventStore.object_update_self _ _ _
  have other : ∀ q, q ≠ r → (w.toCore.withRecord r change).record q = w.record q :=
    fun q different => EventStore.object_update_ne _ _ different
  have standing : ∀ q, (w.toCore.withRecord r change).Standing q → w.Standing q := by
    intro q stands
    refine ⟨stands.1, ?_⟩
    have ended := stands.2
    by_cases here : q = r
    · rw [here, self] at ended
      rw [here]
      exact state ended
    · rwa [other q here] at ended
  refine joined.of_fewer (fun m q found => ?_) standing fun q stands => ?_
  · obtain ⟨made, own⟩ := joined.1 m q found
    refine ⟨made, ?_⟩
    change ((w.toCore.withRecord r change).record q).mrid = m
    by_cases here : q = r
    · rw [here, self, mrid, ← here]
      exact own
    · rw [other q here]
      exact own
  · change ((w.toCore.withRecord r change).record q).programHref = _ ∧ _
    by_cases here : q = r
    · have before := (standing q stands).2
      rw [here] at before ⊢
      change ((w.toCore.withRecord r change).record r).programHref = _ ∧
        ((w.toCore.withRecord r change).record r).derc.start = _ ∧
        ((w.toCore.withRecord r change).record r).derc.duration = _ ∧
        ((w.toCore.withRecord r change).record r).start = _ ∧
        ((w.toCore.withRecord r change).record r).end = _
      rw [self]
      exact same before
    · change ((w.toCore.withRecord r change).record q).programHref = _ ∧
        ((w.toCore.withRecord r change).record q).derc.start = _ ∧
        ((w.toCore.withRecord r change).record q).derc.duration = _ ∧
        ((w.toCore.withRecord r change).record q).start = _ ∧
        ((w.toCore.withRecord r change).record q).end = _
      rw [other q here]
      exact ⟨rfl, rfl, rfl, rfl, rfl⟩

/-- The effects that neither store nor move an event, nor set its state. -/
abbrev unmoving : List Effect :=
  [.supersede, .outcome, .optOut, .prune, .offsets, .register, .unregister, .clearDefaults,
    .recordDefault, .boundary, .claim, .schedule, .cancelTimers, .spawn, .finishChild, .close,
    .control, .issue, .hold]

theorem joined_exec {c : Cmd} (listed : c.effect ∈ unmoving) {w : World} (joined : Joined w) :
    Joined (World.exec c w) := by
  cases c with
  | upsert | setState | refresh => simp [Cmd.effect] at listed
  | addSuperseded r | addSupersededModes r | addApplied r | addRejected r | setOptedOut r =>
      exact joined.withRecord r rfl id fun _ => ⟨rfl, rfl, rfl, rfl, rfl⟩
  | pruneStore now =>
      refine joined.of_fewer (exec_keyed _ w joined.1) (fun r standing => ?_)
        fun _ _ => ⟨rfl, rfl, rfl, rfl, rfl⟩
      obtain ⟨⟨mrid, found⟩, ended⟩ := standing
      exact ⟨⟨mrid, EventStore.get?_pruneExpired found⟩, ended⟩
  | spawn r devices => exact joined.of_store (spawned _ _ _).store
  | _ => exact joined.of_store rfl

/-- The end of a stored event, or its start. -/
theorem joined_setState {w : World} (joined : Joined w) {r : Ref} {st : EventState}
    (revives : st.isTerminal = false → (w.record r).state.isTerminal = false) :
    Joined (World.exec (.setState r st) w) :=
  joined.withRecord r rfl revives fun _ => ⟨rfl, rfl, rfl, rfl, rfl⟩

theorem joined_refresh {w : World} (joined : Joined w) {r : Ref} {derc : Dercontrol} (at_ : Int)
    (steady : (w.record r).state.isTerminal = false →
      derc.start = (w.record r).derc.start ∧ derc.duration = (w.record r).derc.duration) :
    Joined (World.exec (.refresh r derc at_) w) := by
  refine joined.withRecord r rfl id fun standing => ?_
  obtain ⟨start, duration⟩ := steady standing
  exact ⟨rfl, start, duration, rfl, rfl⟩

/-- A new record that meets the standing events that follow it and those it
follows. -/
theorem joined_upsert {w : World} (joined : Joined w) {record : EventRecord}
    (first : record.state.isTerminal = false → ∀ q, w.Standing q →
      (w.record q).programHref = record.programHref →
      record.derc.start + record.derc.duration = (w.record q).derc.start →
      (w.record q).start = record.end)
    (after : record.state.isTerminal = false → ∀ r, w.Standing r →
      (w.record r).programHref = record.programHref →
      (w.record r).derc.start + (w.record r).derc.duration = record.derc.start →
      record.start = (w.record r).end) :
    Joined (World.exec (.upsert record) w) := by
  have new : (World.exec (.upsert record) w).record w.store.next = record :=
    Function.update_self _ _ _
  have old : ∀ q, q ≠ w.store.next → (World.exec (.upsert record) w).record q = w.record q :=
    fun q other => Function.update_of_ne other _ _
  have standing : ∀ q, q ≠ w.store.next → (World.exec (.upsert record) w).Standing q →
      w.Standing q := by
    rintro q other ⟨⟨mrid, found⟩, ended⟩
    rw [old q other] at ended
    change (w.store.events.set _ _).get? mrid = some q at found
    rw [Dict.get?_set] at found
    split at found
    · cases found
      exact absurd rfl other
    · exact ⟨⟨mrid, found⟩, ended⟩
  refine ⟨exec_keyed _ w joined.1, fun r q next => ?_⟩
  have program := next.program
  have meets := next.meets
  by_cases second : q = w.store.next
  · have other : r ≠ w.store.next := fun same => next.different (same.trans second.symm)
    have stands := next.second.2
    rw [second, new] at stands program meets ⊢
    rw [old r other] at program meets ⊢
    exact after stands r (standing r other next.first) program meets
  · by_cases first_ : r = w.store.next
    · have stands := next.first.2
      rw [first_, new] at stands program meets ⊢
      rw [old q second] at program meets ⊢
      exact first stands q (standing q second next.second) program.symm meets
    · rw [old q second, old r first_] at program meets ⊢
      exact joined.2 r q ⟨next.different, standing r first_ next.first,
        standing q second next.second, program, meets⟩

/-! ### Tasks -/

section Tasks

variable {env : Answers}

theorem joined_within {α : Type} {m : Proc α} {es : List Effect} {ws : List Await} {E : Prop}
    (within : Within m es ws E) (listed : es ⊆ unmoving) : Keeps env Joined m := by
  refine Keeps.of_store (fun w w' same joined => joined.of_store same) (fun c w member => ?_) within
  refine joined_exec ?_
  rcases member with own | child
  · exact listed own
  · exact (by decide : childEffects ⊆ unmoving) child

theorem joined_respond (code : ResponseCode) (derc : Dercontrol) (lfdi : Lfdi) :
    Keeps env Joined (respondFor derc code lfdi) :=
  joined_within (respondFor_within derc code lfdi) (by decide)

theorem joined_composes : Composes unmoving (Keeps env Joined) where
  carries := by decide
  bind := Keeps.bind
  get := fun rest => Keeps.get fun w => rest w w
  quiet := fun within => joined_within within (List.Subset.refl _)
  respond := fun _ _ => joined_respond _
  fallback := fun r clear => joined_within (applyDdercFallback_within r clear) (by decide)
  initial := fun p => joined_within (applyInitialDderc_within p) (by decide)

theorem joined_apply (r : Ref) : Keeps env Joined (applyAndRespond r) :=
  joined_within (applyAndRespond_within r) (by decide)

theorem joined_ending (mrid : Mrid) (st : EventState) (terminal : st.isTerminal = true) :
    Keeps env Joined (transition mrid st) := by
  intro w joined
  cases found : w.store.get? mrid with
  | none =>
      rw [eval_transition_none _ st found]
      exact joined
  | some r =>
      rw [eval_transition _ st found]
      refine joined_setState joined fun running => ?_
      rw [terminal] at running
      cases running

theorem joined_hold (refs : List Ref) : Keeps env Joined (perform (.hold refs)) :=
  joined_composes.quiet (Within.perform (by simp [Cmd.effect]))

theorem joined_supersede (map : ProgramDevices) (result : SupersessionResult) :
    Keeps env Joined (supersede map result) :=
  joined_composes.supersede joined_ending joined_hold
    (fun marks => joined_composes.quiet (Within.perform (by rw [marks]; decide))) map result

theorem joined_lateDiscovery (r : Ref) : Keeps env Joined (handleLateDiscovery r) :=
  joined_composes.handleLateDiscovery joined_supersede (joined_apply r)

/-- The offsets a control gets, and what getting them leaves alone. -/
theorem effectiveOffsets_returns (env : Answers) (p : Href) (derc : Dercontrol) (w : World) :
    ∃ v : World, (effectiveOffsets p derc).eval (World.oracle env) w =
        (some (w.offsetsFor p derc), v) ∧
      v.store = w.store ∧ v.resumeAfter = w.resumeAfter := by
  have same : (World.exec (.drawOffsets derc) w).successiveOffset p derc = w.successiveOffset p derc :=
    rfl
  rw [eval_effectiveOffsets]
  dsimp only
  rw [same]
  split
  · rename_i kept
    refine ⟨World.exec (.drawOffsets derc) w, ?_, rfl, rfl⟩
    unfold Core.offsetsFor
    dsimp only
    rw [kept]
  · exact ⟨_, rfl, rfl, rfl⟩

/-- A control takes its start from any event it follows, if they agree. -/
theorem offsetsFor_meets {w : Core} {p : Href} {derc : Dercontrol}
    (agreed : ∀ r q, w.Standing r → w.Standing q →
      (w.record r).programHref = p → (w.record q).programHref = p →
      (w.record r).derc.start + (w.record r).derc.duration = derc.start →
      (w.record q).derc.start + (w.record q).derc.duration = derc.start →
      (w.record r).end = (w.record q).end)
    {r : Ref} (stands : w.Standing r) (program : (w.record r).programHref = p)
    (meets : (w.record r).derc.start + (w.record r).derc.duration = derc.start) :
    derc.start + (w.offsetsFor p derc).1 = (w.record r).end := by
  have offset : (w.offsetsFor p derc).1 = w.successiveOffset p derc
      (w.offsets.getOffsets derc (w.draws 0)).1.1 := rfl
  rw [offset]
  unfold Core.successiveOffset
  cases found : w.findSuccessivePredecessor p derc.start with
  | none =>
      have none_ := List.find?_eq_none.mp found r (EventStore.mem_allActiveStates.mpr stands)
      simp only [decide_eq_true_eq, not_and] at none_
      exact absurd meets (none_ program)
  | some pred =>
      have listed := EventStore.mem_allActiveStates.mp (List.mem_of_find?_eq_some found)
      have fits := List.find?_some found
      simp only [decide_eq_true_eq] at fits
      have ends := agreed pred r listed stands fits.1 program fits.2 meets
      dsimp only
      omega

/-- What is stored for a control that is in order. -/
theorem joined_storeNew {w : World} {p : Href} {primacy : Nat} {now : Int} {derc : Dercontrol}
    {st : EventState} (joined : Joined w) (order : w.InOrder p now derc)
    (takes : isServerCancelled derc = false → w.Takes p now derc) {v : World}
    (same : v.store = w.store) :
    Joined ((storeNew p derc (newRecord derc p primacy st (derc.start + (w.offsetsFor p derc).1)
      (derc.duration + (w.offsetsFor p derc).2))).eval (World.oracle env) v).2 := by
  have there : Joined v := joined.of_store same
  have record : ∀ q, v.record q = w.record q := by
    intro q
    unfold Core.record
    rw [same]
  have standing : ∀ q, v.Standing q → w.Standing q := by
    intro q stands
    unfold Core.Standing at stands ⊢
    rwa [record, same] at stands
  unfold storeNew
  rw [Co.bind_eq, getWorld_bind, Co.eval]
  dsimp only
  split
  · have stored : Joined (World.exec (.upsert { newRecord derc p primacy st
        (derc.start + (w.offsetsFor p derc).1) (derc.duration + (w.offsetsFor p derc).2) with
        state := .cancelled }) v) := joined_upsert there nofun nofun
    refine Keeps.bind ?_ (fun _ => joined_composes.stopIfClosed) _ stored
    exact joined_composes.postResponse (joined_respond _) _ _ _
  · rename_i wanted
    have taken := takes (Bool.eq_false_iff.mpr wanted)
    have stored : Joined (World.exec (.upsert (newRecord derc p primacy st
        (derc.start + (w.offsetsFor p derc).1) (derc.duration + (w.offsetsFor p derc).2))) v) := by
      refine joined_upsert there (fun _ q stands program meets => ?_)
        fun _ r stands program meets => ?_
      · rw [record] at program meets ⊢
        exact order.first taken q (standing q stands) program meets
      · rw [record] at program meets ⊢
        exact offsetsFor_meets (order.agreed taken) (standing r stands) program meets
    have goes : ∀ lfdis r, Keeps env Joined (perform (.clearDderc lfdis) >>= fun _ =>
        introduce st r >>= fun _ => stopIfClosed) := by
      intro lfdis r
      refine Keeps.bind (joined_composes.perform (by simp [Cmd.effect])) fun _ => ?_
      refine Keeps.bind (joined_composes.introduce _ (joined_lateDiscovery _)) fun _ => ?_
      exact joined_composes.stopIfClosed
    exact goes _ _ _ stored

/-- A round for a control that is in order. -/
theorem joined_processControl (env : Answers) {w : World} {p : Href} (primacy : Nat) {now : Int}
    {derc : Dercontrol} (joined : Joined w) (order : w.InOrder p now derc) :
    Joined ((processControl p primacy now derc).eval (World.oracle env) w).2 := by
  obtain ⟨v, drawn, same, boundary⟩ := effectiveOffsets_returns env p derc w
  unfold processControl
  rw [Co.bind_eq, Co.eval_bind, drawn]
  dsimp only
  rw [eval_getWorld, same]
  cases found : w.store.get? derc.mrid with
  | some r =>
      have refreshed : Joined (World.exec (.refresh r derc
          ((derc.eventStatus.bind (·.dateTime)).getD 0)) v) := by
        refine joined_refresh (joined.of_store same) _ fun running => ?_
        unfold Core.record at running ⊢
        rw [same] at running ⊢
        exact order.steady r found running
      refine Keeps.get (P := Joined) (fun u kept => ?_) _ refreshed
      split
      · refine Keeps.bind (joined_composes.handleCancellation joined_ending r) (fun _ => ?_) u kept
        exact joined_composes.stopIfClosed
      · exact kept
  | none =>
      change Joined (Co.eval (World.oracle env) (if _ then _ else _) v).2
      rw [boundary]
      split
      · exact joined.of_store same
      · rename_i resumed
        split
        · change Joined (Co.eval (World.oracle env) (if _ then _ else _) v).2
          split
          · exact joined.of_store same
          · refine Keeps.bind ?_ (fun _ => joined_composes.stopIfClosed) v (joined.of_store same)
            exact joined_composes.postResponse (joined_respond _) _ _ _
        · rename_i running
          refine joined_storeNew joined order (fun wanted => ?_) same
          exact ⟨found, Bool.eq_false_iff.mpr resumed, not_lt.mp running, wanted⟩

end Tasks

/-! ### The control poll -/

/-- Each control of the list is in order when its round comes. -/
def RoundsInOrder (env : Answers) (ps : DerProgramState) (epoch primacy : Nat) (now : Int) :
    Nat → Nat → World → Prop
  | _, 0, _ => True
  | i, rounds + 1, w => ∀ derc, (w.objectOf epoch ps).derControls[i]? = some derc →
      w.InOrder ps.href now derc ∧
        RoundsInOrder env ps epoch primacy now (i + 1) rounds
          ((processControl ps.href primacy now derc).eval (World.oracle env) w).2

/-- A poll classifies its controls in order; an activation revives nothing. -/
def Orderly (w : World) (env : Answers) : Job → Prop
  | .processControls p room => w.closed = false → ∀ pid v ps,
      w.begins pid (.processControls p room) = some v →
      w.discovered.derPrograms.get? p = some ps →
      RoundsInOrder env ps (w.epoch p) ps.primacy (w.now p) 0 (ps.derControls.length + room) v
  | .timer .activation r => ∀ q, w.store.get? (w.record r).mrid = some q →
      (w.record q).state.isTerminal = false
  | _ => True

section Poll

variable {env : Answers}

theorem joined_processServed (ps : DerProgramState) (epoch primacy : Nat) (now : Int)
    (i rounds : Nat) {w : World} (joined : Joined w)
    (order : RoundsInOrder env ps epoch primacy now i rounds w) :
    Joined ((processServed ps epoch primacy now i rounds).eval (World.oracle env) w).2 := by
  induction rounds generalizing i w with
  | zero => exact joined
  | succ rounds ih =>
      unfold processServed
      rw [eval_getWorld]
      cases found : (w.objectOf epoch ps).derControls[i]? with
      | none => exact joined
      | some derc =>
          obtain ⟨here, later⟩ := order derc found
          have after := joined_processControl env primacy joined here
          dsimp only
          rw [Co.bind_eq, Co.eval_bind]
          generalize (processControl ps.href primacy now derc).eval (World.oracle env) w = done
            at after later
          obtain ⟨outcome, v⟩ := done
          rcases outcome with _ | stop
          · exact after
          · cases stop with
            | true => exact after
            | false => exact ih (i + 1) after later

theorem joined_finishPoll (p : Href) (now : Int) : Keeps env Joined (finishPoll p now) := by
  refine Keeps.bind (joined_composes.runSupersession joined_supersede) fun _ => ?_
  refine joined_composes.unlessClosed ?_
  have prunes : ∀ c : Cmd, c.effect = .prune → Keeps env Joined (perform c) := fun c prunes =>
    joined_composes.quiet (Within.perform (by rw [prunes]; decide))
  refine Keeps.bind (prunes _ rfl) fun _ => Keeps.bind (prunes _ rfl) fun _ => ?_
  exact Keeps.bind (prunes _ rfl) fun _ => joined_composes.initial p

/-- A poll that is in order. -/
theorem joined_poll {w v : World} {p : Href} {room : Nat} {pid : Pid} (joined : Joined w)
    (order : Orderly w env (.processControls p room))
    (begun : w.begins pid (.processControls p room) = some v) :
    Joined ((processControls p room).eval (World.oracle env) v).2 := by
  have started : Joined v := joined.of_store (begins_store begun)
  have same : v.closed = w.closed ∧ v.discovered = w.discovered ∧ v.epoch p = w.epoch p ∧
      v.now p = w.now p := by
    obtain ⟨_, _, _, rfl⟩ := begins_spec begun
    exact ⟨rfl, rfl, rfl, rfl⟩
  obtain ⟨closed, discovered, epoch, now⟩ := same
  change Joined (Co.eval (World.oracle env) (if v.closed = true then _ else _) v).2
  split
  · exact started
  · rename_i open_
    rw [closed] at open_
    rw [eval_getWorld, discovered]
    cases found : w.discovered.derPrograms.get? p with
    | none => exact started
    | some ps =>
        have rounds := order (Bool.eq_false_iff.mpr open_) pid v ps begun found
        rw [← epoch, ← now] at rounds
        have served := joined_processServed ps _ _ _ _ _ started rounds
        have rest : ∀ stop : Bool, Keeps env Joined (if stop = true then pure () else do
            let stop ← reconcileServed ps (v.epoch p) (v.now p)
            if stop = true then pure () else finishPoll p (v.now p)) := by
          intro stop
          split
          · exact joined_composes.pure ()
          · refine Keeps.bind (joined_composes.reconcileServed joined_ending joined_hold _ _ _) ?_
            intro stop
            split
            · exact joined_composes.pure ()
            · exact joined_finishPoll p _
        dsimp only
        rw [Co.bind_eq, Co.eval_bind]
        generalize (processServed ps (v.epoch p) ps.primacy (v.now p) 0
          (ps.derControls.length + room)).eval (World.oracle env) v = done at served
        obtain ⟨outcome, u⟩ := done
        cases outcome with
        | none => exact served
        | some stop => exact rest stop u served

/-- An activation that revives nothing. -/
theorem joined_activation {w v : World} {r : Ref} {pid : Pid} (joined : Joined w)
    (order : Orderly w env (.timer .activation r))
    (begun : w.begins pid (.timer .activation r) = some v) :
    Joined ((fireTimer .activation r).eval (World.oracle env) v).2 := by
  -- What the event is transitioned by is its mRID.
  let Wakes (u : World) : Prop := Joined u ∧ ∀ q, u.store.get? (u.record r).mrid = some q →
    (u.record q).state.isTerminal = false
  have same : ∀ u u' : World, u'.store = u.store → Wakes u → Wakes u' := by
    intro u u' same wakes
    refine ⟨wakes.1.of_store same, ?_⟩
    unfold Core.record
    rw [same]
    exact wakes.2
  have ready : Keeps env Wakes awaitStateReady := by
    refine Keeps.of_within awaitStateReady_within (by decide) (fun c u listed => ?_) ?_
    · exact absurd listed List.not_mem_nil
    · exact fun q a u => same u _ (answered_store u q a)
  have started : Wakes v := same w v (begins_store begun) ⟨joined, order⟩
  change Joined (Co.eval (World.oracle env) (if _ then _ else onActivation r) v).2
  split
  · exact started.1
  · refine Keeps.seq ready (fun _ => And.left) (fun _ u wakes => ?_) v started
    change Joined (Co.eval (World.oracle env) (if _ then _ else _) u).2
    split
    · exact wakes.1
    · have active : Joined ((transition (u.record r).mrid .active).eval (World.oracle env) u).2 := by
        cases found : u.store.get? (u.record r).mrid with
        | none =>
            rw [eval_transition_none _ _ found]
            exact wakes.1
        | some q =>
            rw [eval_transition _ _ found]
            exact joined_setState wakes.1 fun _ => wakes.2 q found
      have rest : Keeps env Joined (getWorld >>= fun w' =>
          if w'.commsLoss = true then optOutEvent r else startEvent r) := by
        refine joined_composes.get fun w' => ?_
        split
        · exact joined_composes.optOutEvent r
        · exact joined_composes.startEvent joined_supersede (joined_apply r)
      rw [Co.bind_eq, Co.eval_bind]
      generalize (transition (u.record r).mrid .active).eval (World.oracle env) u = done at active
      obtain ⟨outcome, u'⟩ := done
      cases outcome with
      | none => exact active
      | some _ => exact rest u' active

end Poll

/-! ### Runs -/

/-- One task. -/
theorem joined_alone {env : Answers} {w w' : World} {pid : Pid} {j : Job} (joined : Joined w)
    (order : Orderly w env j) (ran : w.alone env pid j = some w') : Joined w' := by
  obtain ⟨v, begun, rfl⟩ := Option.map_eq_some_iff.mp ran
  have started : Joined v := joined.of_store (begins_store begun)
  cases j with
  | processControls p room => exact joined_poll joined order begun
  | cancelProgram p => exact joined_composes.cancelProgram joined_ending p v started
  | enterCommsLoss => exact joined_composes.enterCommsLoss v started
  | shutdown => exact joined_composes.perform (by decide) v started
  | timer callback r =>
      cases callback with
      | activation => exact joined_activation joined order begun
      | completion =>
          change Joined (Co.eval (World.oracle env) (if _ then _ else onCompletion r) v).2
          split
          · exact started
          · exact joined_composes.onCompletion joined_ending r v started
      | windDown =>
          change Joined (Co.eval (World.oracle env) (if _ then _ else applyDdercFallback r false) v).2
          split
          · exact started
          · exact joined_composes.fallback r false v started
  | dispatchAndReport r d => exact joined_within (dispatchAndReport_within r d) (by decide) v started

/-- In every run of tasks one after the other, whatever the server serves and
whatever is drawn: if each control is classified in order and no activation
revives an event, successive events meet. -/
theorem successive_seamless {core : Core} {w : World} (fresh : core.Fresh)
    (run : Turns Orderly (fun _ _ => True) { toCore := core } w) : w.Seamless := by
  have reached : Joined w := by
    induction run with
    | refl =>
        refine ⟨fresh.keyed, fun r q next => ?_⟩
        obtain ⟨⟨mrid, stored⟩, -⟩ := next.first
        change core.store.get? mrid = some r at stored
        rw [fresh.store] at stored
        cases stored
    | job env pid j _ order ran ih => exact joined_alone ih order ran
    | ext e _ _ ih =>
        refine ih.of_store ?_
        cases e <;> rfl
  exact reached.2

/-! ### A randomized event and the one that follows it -/

/-- An event whose end is drawn. -/
def variedControl : Dercontrol :=
  { plainControl 1 10 100 .opModFixedW with randomizeDuration := some (-10) }

/-- The event that follows it. -/
def nextControl : Dercontrol := plainControl 2 110 100 .opModFixedW

/-- A program with both, in the given order. 5 s are taken off its duration. -/
def pairedCore (controls : List Dercontrol) : Core :=
  { plainCore [plainProgram "/derp/1" 1 controls] [("/derp/1", "/edev/1")] with
    draws := fun _ => (0, 5) }

/-- Both are known after one poll. -/
def pairedMet (controls : List Dercontrol) : World :=
  World.polled "/derp/1" { toCore := pairedCore controls }

/-- The state in which the second round of that poll starts. -/
def pairedBetween : World :=
  ((processControl "/derp/1" 1 0 variedControl).eval (World.oracle {})
    { toCore := { pairedCore [variedControl, nextControl] with
        nextPid := (pairedCore [variedControl, nextControl]).nextPid + 1
        current := (pairedCore [variedControl, nextControl]).nextPid } }).2

theorem pairedBetween_inOrder : pairedBetween.InOrder "/derp/1" 0 nextControl := by
  have only : ∀ mrid r, pairedBetween.store.get? mrid = some r → mrid = 1 ∧ r = 0 := by
    intro mrid r stored
    have entries : pairedBetween.store.events.entries = [(1, 0)] := by decide +kernel
    have listed := (Dict.mem_entries_iff _ _ _).mpr stored
    rw [entries, List.mem_singleton, Prod.mk.injEq] at listed
    exact listed
  refine ⟨fun r stored => ?_, fun _ q stands _ meets => ?_, fun _ r q first second _ _ _ _ => ?_⟩
  · exact absurd (only _ r stored).1 (by decide)
  · obtain ⟨⟨mrid, stored⟩, -⟩ := stands
    obtain ⟨-, rfl⟩ := only mrid q stored
    exact absurd meets (by decide +kernel)
  · obtain ⟨⟨mrid, stored⟩, -⟩ := first
    obtain ⟨⟨mrid', stored'⟩, -⟩ := second
    rw [(only mrid r stored).2, (only mrid' q stored').2]

/-- In order: the second event starts where the first one ends, at 105. -/
theorem pairedMet_meets :
    (pairedMet [variedControl, nextControl]).Successive 0 1 ∧
      ((pairedMet [variedControl, nextControl]).record 0).end = 105 ∧
      ((pairedMet [variedControl, nextControl]).record 1).start =
        ((pairedMet [variedControl, nextControl]).record 0).end := by
  have next : (pairedMet [variedControl, nextControl]).Successive 0 1 :=
    ⟨by decide, ⟨⟨1, by decide +kernel⟩, by decide +kernel⟩,
      ⟨⟨2, by decide +kernel⟩, by decide +kernel⟩, by decide +kernel, by decide +kernel⟩
  refine ⟨next, by decide +kernel, ?_⟩
  refine successive_seamless (by constructor <;> rfl) (Turns.polled (.refl _) ?_) 0 1 next
  rintro - pid v ps begun found
  obtain rfl := Option.some.inj found
  by_cases first : pid = (pairedCore [variedControl, nextControl]).nextPid
  · subst first
    obtain rfl := Option.some.inj begun
    intro derc listed
    obtain rfl := Option.some.inj listed
    refine ⟨⟨nofun, fun _ q stands => ?_, fun _ r q stands => ?_⟩, fun derc listed => ?_⟩
    · obtain ⟨⟨mrid, stored⟩, -⟩ := stands
      cases stored
    · obtain ⟨⟨mrid, stored⟩, -⟩ := stands
      cases stored
    · obtain rfl := Option.some.inj listed
      exact ⟨pairedBetween_inOrder, trivial⟩
  · have never : World.begins { toCore := pairedCore [variedControl, nextControl] } pid
        (.processControls "/derp/1" 0) = none := by
      simp only [World.begins, Core.begins, if_neg first, Option.map_none]
    rw [never] at begun
    cases begun

/-- The other way round the second event starts at 110, though the first one ends
at 105. -/
theorem pairedMet_gap :
    Turns (fun _ _ _ => True) (fun _ _ => True) { toCore := pairedCore [nextControl, variedControl] }
        (pairedMet [nextControl, variedControl]) ∧
      (pairedMet [nextControl, variedControl]).Successive 1 0 ∧
      ((pairedMet [nextControl, variedControl]).record 1).end = 105 ∧
      ((pairedMet [nextControl, variedControl]).record 0).start = 110 := by
  refine ⟨Turns.polled (.refl _) trivial, ?_, by decide +kernel⟩
  exact ⟨by decide, ⟨⟨1, by decide +kernel⟩, by decide +kernel⟩,
    ⟨⟨2, by decide +kernel⟩, by decide +kernel⟩, by decide +kernel, by decide +kernel⟩

end Py20305
