import Py20305.Events.Alone

/-!
An event is run at most once, as far as the grace periods reach.

The server keeps serving one control, and polls, timers and everything else run
one after the other, at poll times that do not go back. Three things know of the
event: its record, until 60 s after its end; its random offsets, until 10 s after
the end they give; and nothing else. Once the offsets are forgotten they are
drawn again, and may give another end. `event_runs_once`: while the two
randomization fields together span at most 60 s, and no control of a program
that serves it ends exactly where it starts (which would set its start by rule
m)), only one record is ever made for it, and after the record was pruned no
control of it is dispatched any more.

`Once` is the invariant: the end of the record made lies in the same span as
every end there could be, and once the record is gone that span is over.
-/

namespace Py20305

open Coroutine Co

/-! ### The span of an event's ends -/

/-- An offset within its randomization field. -/
def InField (value : Option Int) (offset : Int) : Prop :=
  min (value.getD 0) 0 ≤ offset ∧ offset ≤ max (value.getD 0) 0

theorem inField_computeOffset (value : Option Int) (draw : Nat) :
    InField value (RandomizationCache.computeOffset value draw) := by
  unfold InField RandomizationCache.computeOffset
  cases value with
  | none => simp
  | some v =>
      simp only [Option.getD_some]
      split
      · rename_i zero
        simp [zero]
      · have bound : draw % (v.natAbs + 1) < v.natAbs + 1 := Nat.mod_lt _ (Nat.succ_pos _)
        split <;> omega

/-- The earliest and the latest end the offsets of a control can give it. -/
def Dercontrol.earliestEnd (c : Dercontrol) : Int :=
  c.start + c.duration + min (c.randomizeStart.getD 0) 0 + min (c.randomizeDuration.getD 0) 0

def Dercontrol.latestEnd (c : Dercontrol) : Int :=
  c.start + c.duration + max (c.randomizeStart.getD 0) 0 + max (c.randomizeDuration.getD 0) 0

/-- How far apart they are. -/
def Dercontrol.spread (c : Dercontrol) : Nat :=
  (c.randomizeStart.getD 0).natAbs + (c.randomizeDuration.getD 0).natAbs

theorem Dercontrol.latestEnd_eq (c : Dercontrol) : c.latestEnd = c.earliestEnd + c.spread := by
  unfold latestEnd earliestEnd spread
  omega

/-! ### The invariant -/

/-- The control in question, the programs that may serve it, and the mRIDs that
these serve. -/
structure Watched extends Dercontrol where
  programs : Href → Prop
  mrids : Mrid → Prop

/-- A control served by `p` that is the one in question, if it has its mRID, and
does not end where that one starts, if its mRID is one of those. -/
structure Alike (c₀ : Watched) (p : Href) (c : Dercontrol) : Prop where
  own : c.mrid = c₀.mrid → c.start = c₀.start ∧ c.duration = c₀.duration ∧
    c.randomizeStart = c₀.randomizeStart ∧ c.randomizeDuration = c₀.randomizeDuration
  program : c.mrid = c₀.mrid → c₀.programs p
  near : c₀.programs p → c₀.mrids c.mrid
  free : c₀.mrids c.mrid → c.start + c.duration ≠ c₀.start

/-- Every served control is like that. A program is found under its href. -/
def Steady (c₀ : Watched) (state : DiscoveredState) : Prop :=
  ∀ p ps, state.derPrograms.get? p = some ps →
    ∀ c ∈ ps.derControls, Alike c₀ p c ∧ Alike c₀ ps.href c

/-- At most one record was made for the event, and once it is not stored any
more its end is more than the grace period before `last`, the time of the last
poll. -/
structure Once (c₀ : Watched) (last : Int) (w : World) : Prop where
  keyed : w.store.Keyed
  unmade : ∀ r, w.store.next ≤ r → (w.record r).state.isTerminal = true
  steady : Steady c₀ w.discovered
  alone : ∀ r < w.store.next, ∀ q < w.store.next, (w.record r).mrid = c₀.mrid →
    (w.record q).mrid = c₀.mrid → r = q
  pruned : ∀ r < w.store.next, (w.record r).mrid = c₀.mrid → w.store.get? c₀.mrid = none →
    (w.record r).end + 60 < last
  ends : ∀ r < w.store.next, (w.record r).mrid = c₀.mrid → c₀.earliestEnd ≤ (w.record r).end
  offsets : ∀ o, w.offsets.cache.get? c₀.mrid = some o →
    InField c₀.randomizeStart o.1 ∧ InField c₀.randomizeDuration o.2
  near : ∀ r < w.store.next, c₀.programs (w.record r).programHref → c₀.mrids (w.record r).mrid
  free : ∀ r < w.store.next, c₀.mrids (w.record r).mrid →
    (w.record r).derc.start + (w.record r).derc.duration ≠ c₀.start

/-- The record has ended and is gone from the store, and since `log` no control
of the event was dispatched. -/
structure Gone (c₀ : Watched) (r₀ : Ref) (log : List Issued) (w : World) : Prop where
  made : r₀ < w.store.next
  own : (w.record r₀).mrid = c₀.mrid
  ended : (w.record r₀).state.isTerminal = true
  absent : w.store.get? c₀.mrid = none
  issued : ∀ e ∈ w.issued, e ∈ log ∨ ∀ t base, e.call ≠ .control t c₀.mrid base

/-- What is known between two waits: the invariant, and more once the record is
gone. -/
structure Tracked (c₀ : Watched) (last : Int) (gone : Option (Ref × List Issued)) (w : World) :
    Prop where
  once : Once c₀ last w
  gone : ∀ g ∈ gone, Gone c₀ g.1 g.2 w

/-- Record `r` is not the one that is gone. -/
def Apart (gone : Option (Ref × List Issued)) (r : Ref) : Prop := ∀ g ∈ gone, r ≠ g.1

theorem Once.later {c₀ : Watched} {last now : Int} {w : World} (once : Once c₀ last w)
    (forward : last ≤ now) : Once c₀ now w :=
  { once with
    pruned := fun r made own absent => lt_of_lt_of_le (once.pruned r made own absent) forward }

/-! ### What leaves the invariant alone -/

/-- The events are as they were, with the controls they were made from, and so
are the offsets and the discovered state. -/
structure Undisturbed (w w' : World) : Prop extends EventsKept w w' where
  ends : ∀ r, (w'.record r).end = (w.record r).end
  derc : ∀ r, (w'.record r).derc = (w.record r).derc
  program : ∀ r, (w'.record r).programHref = (w.record r).programHref
  offsets : w'.offsets = w.offsets
  discovered : w'.discovered = w.discovered

namespace Undisturbed

variable {w w' w'' : World}

theorem of_store (store : w'.store = w.store) (offsets : w'.offsets = w.offsets)
    (discovered : w'.discovered = w.discovered) : Undisturbed w w' := by
  refine ⟨EventsKept.of_store store, ?_, ?_, ?_, offsets, discovered⟩ <;> intro r <;>
    simp only [Core.record, store]

theorem withRecord (w : World) (r : Ref) {change : EventRecord → EventRecord}
    (state : ∀ record, (change record).state = record.state)
    (mrid : ∀ record, (change record).mrid = record.mrid)
    (ends : ∀ record, (change record).end = record.end)
    (derc : ∀ record, (change record).derc = record.derc)
    (program : ∀ record, (change record).programHref = record.programHref) :
    Undisturbed w { w with toCore := w.toCore.withRecord r change } := by
  have one : ∀ q, ((w.toCore.withRecord r change).record q).end = (w.record q).end ∧
      ((w.toCore.withRecord r change).record q).derc = (w.record q).derc ∧
      ((w.toCore.withRecord r change).record q).programHref = (w.record q).programHref := by
    intro q
    unfold Core.record Core.withRecord
    by_cases same : q = r
    · subst same
      rw [EventStore.object_update_self]
      exact ⟨ends _, derc _, program _⟩
    · rw [EventStore.object_update_ne _ _ same]
      exact ⟨rfl, rfl, rfl⟩
  exact ⟨EventsKept.withRecord w r state mrid, fun q => (one q).1, fun q => (one q).2.1,
    fun q => (one q).2.2, rfl, rfl⟩

end Undisturbed

/-- The effects that leave it alone. -/
abbrev undisturbing : List Effect := .control :: .issue :: .spawn :: .hold :: carriers

theorem undisturbed_exec {c : Cmd} (listed : c.effect ∈ undisturbing) (w : World) :
    Undisturbed w (World.exec c w) := by
  cases c with
  | upsert | setState | pruneStore | pruneOffsets | pruneResponses | refresh | drawOffsets
  | overrideOffset => simp [Cmd.effect] at listed
  | addSuperseded r | addSupersededModes r | addApplied r | addRejected r | setOptedOut r =>
      refine Undisturbed.withRecord w r ?_ ?_ ?_ ?_ ?_ <;> exact fun _ => rfl
  | spawn r devices =>
      have frame := spawned w.toCore r devices
      exact Undisturbed.of_store frame.store frame.offsets frame.discovered
  | _ => exact Undisturbed.of_store rfl rfl rfl

section Preserved

variable {c₀ : Watched} {last : Int} {w w' : World}

theorem Once.undisturbed (once : Once c₀ last w) (same : Undisturbed w w') : Once c₀ last w' where
  keyed := same.keyed once.keyed
  unmade := by
    intro r late
    rw [same.state r]
    exact once.unmade r (same.next ▸ late)
  steady := same.discovered ▸ once.steady
  alone := by
    intro r made q made' own own'
    rw [same.next] at made made'
    rw [same.mrid] at own own'
    exact once.alone r made q made' own own'
  pruned := by
    intro r made own absent
    rw [same.next] at made
    rw [same.mrid] at own
    rw [same.get?] at absent
    rw [same.ends]
    exact once.pruned r made own absent
  ends := by
    intro r made own
    rw [same.next] at made
    rw [same.mrid] at own
    rw [same.ends]
    exact once.ends r made own
  offsets := by
    intro o found
    rw [same.offsets] at found
    exact once.offsets o found
  near := by
    intro r made
    rw [same.next] at made
    rw [same.program, same.mrid]
    exact once.near r made
  free := by
    intro r made
    rw [same.next] at made
    rw [same.derc, same.mrid]
    exact once.free r made

/-- The same, with no control of the event dispatched. -/
theorem Gone.undisturbed {r₀ : Ref} {log : List Issued} (gone : Gone c₀ r₀ log w)
    (same : Undisturbed w w')
    (issued : ∀ e ∈ w'.issued, e ∈ w.issued ∨ ∀ t base, e.call ≠ .control t c₀.mrid base) :
    Gone c₀ r₀ log w' where
  made := same.next ▸ gone.made
  own := (same.mrid r₀).trans gone.own
  ended := (same.state r₀).symm ▸ gone.ended
  absent := (same.get? _).trans gone.absent
  issued := by
    intro e member
    rcases issued e member with before | other
    · exact gone.issued e before
    · exact .inr other

theorem Tracked.undisturbed {gone : Option (Ref × List Issued)} (h : Tracked c₀ last gone w)
    (same : Undisturbed w w')
    (issued : ∀ e ∈ w'.issued, e ∈ w.issued ∨ ∀ t base, e.call ≠ .control t c₀.mrid base) :
    Tracked c₀ last gone w' :=
  ⟨h.once.undisturbed same, fun g member => (h.gone g member).undisturbed same issued⟩

end Preserved

/-! ### Between two dispatches -/

/-- The invariant between two dispatches, with `r`, if any, a record that is
there and is not the one that is gone. -/
structure Going (c₀ : Watched) (last : Int) (gone : Option (Ref × List Issued)) (r : Option Ref)
    (w : World) : Prop where
  tracked : Tracked c₀ last gone w
  idle : Idle w
  here : ∀ q ∈ r, q < w.store.next ∧ Apart gone q

section Calm

variable {c₀ : Watched} {last : Int} {gone : Option (Ref × List Issued)} {r : Option Ref}
  {w w' : World}

theorem Going.undisturbed (going : Going c₀ last gone r w) (same : Undisturbed w w')
    (idle : Idle w') (issued : ∀ e ∈ w'.issued, e ∈ w.issued ∨ e.call.isControl = false) :
    Going c₀ last gone r w' := by
  refine ⟨going.tracked.undisturbed same fun e member => ?_, idle, fun q member => ?_⟩
  · rcases issued e member with before | other
    · exact .inl before
    · refine .inr fun t base control => ?_
      rw [control] at other
      cases other
  · rw [same.next]
    exact going.here q member

/-- The effects that neither touch the events nor put controls on devices. -/
abbrev calmEffects : List Effect := .issue :: .hold :: carriers

theorem issued_exec {c : Cmd} (listed : c.effect ∈ calmEffects) :
    ∀ e ∈ (World.exec c w).issued, e ∈ w.issued ∨ e.call.isControl = false := by
  intro e member
  cases c with
  | issue calls =>
      rcases List.mem_append.mp member with before | added
      · exact .inl before
      · obtain ⟨call, made, rfl⟩ := List.mem_map.mp added
        refine .inr ?_
        by_contra control
        have some_ : calls.any Call.isControl = true :=
          List.any_eq_true.mpr ⟨call, made, by simpa using control⟩
        simp [Cmd.effect, some_] at listed
  | _ => exact .inl member

theorem going_exec {c : Cmd} (listed : c.effect ∈ calmEffects) (going : Going c₀ last gone r w) :
    Going c₀ last gone r (World.exec c w) :=
  going.undisturbed (undisturbed_exec (List.Subset.trans (by decide) (List.Subset.refl _) listed) w)
    (idle_exec (fun spawns => by rw [spawns] at listed; exact absurd listed (by decide)) going.idle)
    (issued_exec listed)

theorem going_answered {q : Request} (a : q.Answer) (going : Going c₀ last gone r w) :
    Going c₀ last gone r (w.answered q a) := by
  obtain ⟨_, _, answered⟩ := answered_spec w q a
  rw [answered]
  exact going.undisturbed (Undisturbed.of_store rfl rfl rfl) going.idle fun _ member => .inl member

theorem keeps_calm {env : Answers} {α : Type} {m : Proc α} {es : List Effect} {ws : List Await}
    {E : Prop} (within : Within m es ws E) (effects : es ⊆ calmEffects) (waits : ws ⊆ calm) :
    Keeps env (Going c₀ last gone r) m :=
  Keeps.of_within within waits (fun _ _ listed going => going_exec (effects listed) going)
    fun _ a _ going => going_answered a going

theorem made_setState (w : World) (q r : Ref) (st : EventState) :
    ((World.exec (.setState q st) w).record r).end = (w.record r).end ∧
      ((World.exec (.setState q st) w).record r).derc = (w.record r).derc ∧
      ((World.exec (.setState q st) w).record r).programHref = (w.record r).programHref := by
  by_cases same : r = q
  · rw [same, record_setState_self]
    exact ⟨rfl, rfl, rfl⟩
  · rw [record_setState_ne w st same]
    exact ⟨rfl, rfl, rfl⟩

theorem Once.setState {q : Ref} (once : Once c₀ last w) (made : q < w.store.next)
    (st : EventState) : Once c₀ last (World.exec (.setState q st) w) where
  keyed := exec_keyed _ w once.keyed
  unmade := by
    intro r late
    rw [record_setState_ne w st (Nat.ne_of_gt (lt_of_lt_of_le made late))]
    exact once.unmade r late
  steady := once.steady
  alone := by
    intro r made q made' own own'
    rw [mrid_setState] at own own'
    exact once.alone r made q made' own own'
  pruned := by
    intro r made own absent
    rw [mrid_setState] at own
    rw [(made_setState w _ r st).1]
    exact once.pruned r made own absent
  ends := by
    intro r made own
    rw [mrid_setState] at own
    rw [(made_setState w _ r st).1]
    exact once.ends r made own
  offsets := once.offsets
  near := by
    intro r made
    rw [(made_setState w _ r st).2.2, mrid_setState]
    exact once.near r made
  free := by
    intro r made
    rw [(made_setState w _ r st).2.1, mrid_setState]
    exact once.free r made

theorem keeps_transition (env : Answers) (mrid : Mrid) (st : EventState) :
    Keeps env (Going c₀ last gone r) (transition mrid st) := by
  intro w going
  cases stored : w.store.get? mrid with
  | none =>
      rw [eval_transition_none _ _ stored]
      exact going
  | some q =>
      rw [eval_transition _ _ stored]
      obtain ⟨made, own⟩ := going.tracked.once.keyed mrid q stored
      refine ⟨⟨going.tracked.once.setState made st, fun g member => ?_⟩, going.idle, going.here⟩
      have gone_ := going.tracked.gone g member
      -- The record that is gone is not stored, so it is not the one that moves.
      have other : g.1 ≠ q := by
        intro same
        have stored' := gone_.absent
        rw [← gone_.own, same, show (w.toCore.record q).mrid = mrid from own, stored] at stored'
        cases stored'
      refine ⟨gone_.made, ?_, ?_, gone_.absent, gone_.issued⟩
      · rw [mrid_setState]
        exact gone_.own
      · rw [record_setState_ne w st other]
        exact gone_.ended

/-! ### Putting a control on devices -/

/-- Calls for a record that is there and not gone. -/
theorem going_issue {calls : List Call} {q : Ref}
    (tracked : Tracked c₀ last gone w) (made : q < w.store.next) (apart : Apart gone q)
    (own : ∀ call ∈ calls, ∀ t mrid base, call = .control t mrid base → mrid = (w.record q).mrid) :
    Tracked c₀ last gone (World.exec (.issue calls) w) := by
  have same : Undisturbed w (World.exec (.issue calls) w) := Undisturbed.of_store rfl rfl rfl
  refine ⟨tracked.once.undisturbed same, fun g member => ?_⟩
  have gone_ := tracked.gone g member
  refine gone_.undisturbed same fun e logged => ?_
  rcases List.mem_append.mp logged with before | added
  · exact .inl before
  · obtain ⟨call, listed, rfl⟩ := List.mem_map.mp added
    refine .inr fun t base control => ?_
    have mine := own call listed t _ base control
    exact apart g member (tracked.once.alone q made g.1 gone_.made mine.symm gone_.own)

theorem spawnedFor_spawn {q : Ref} (devices : List Href) (core : Core)
    (before : ∀ pid v, core.spawned.get? pid = some v → v.1 = q) :
    ∀ pid v, (devices.foldl (fun w d => w.spawnChild q d) core).spawned.get? pid = some v →
      v.1 = q := by
  induction devices generalizing core with
  | nil => exact before
  | cons d rest ih =>
      apply ih
      intro pid v found
      simp only [Core.spawnChild, Dict.get?_set] at found
      split at found
      · cases found
        rfl
      · exact before pid v found

/-- The invariant while children made for `q` run. -/
structure Dispatching (c₀ : Watched) (last : Int) (gone : Option (Ref × List Issued)) (q : Ref)
    (w : World) : Prop where
  tracked : Tracked c₀ last gone w
  made : q < w.store.next
  apart : Apart gone q

theorem Dispatching.undisturbed {q : Ref} (h : Dispatching c₀ last gone q w)
    (same : Undisturbed w w') (issued : w'.issued = w.issued) :
    Dispatching c₀ last gone q w' where
  tracked := h.tracked.undisturbed same fun _ member => .inl (issued ▸ member)
  made := same.next ▸ h.made
  apart := h.apart

/-- What a child does after its dispatch. -/
abbrev reporting : List Effect := [.outcome, .unregister, .claim, .finishChild]

theorem dispatching_exec {q : Ref} {c : Cmd} (listed : c.effect ∈ reporting)
    (h : Dispatching c₀ last gone q w) : Dispatching c₀ last gone q (World.exec c w) := by
  have frame : reporting ⊆ undisturbing := by decide
  refine h.undisturbed (undisturbed_exec (frame listed) w) ?_
  cases c with
  | issue calls => exact absurd listed (issue_effect_notMem calls (by decide) (by decide))
  | _ => rfl

/-- A child of the dispatch of `q`. -/
theorem dispatching_child (env : Answers) {q : Ref} (d : Href)
    (h : Dispatching c₀ last gone q w) :
    Dispatching c₀ last gone q ((dispatchAndReport q d).final (World.leafOracle env) w) := by
  let call := Call.control (.href d) (w.record q).mrid (w.record q).derc.base
  have issued : Dispatching c₀ last gone q (World.exec (.issue [call]) w) := by
    refine ⟨going_issue h.tracked h.made h.apart ?_, h.made, h.apart⟩
    intro c listed t mrid base control
    rw [List.mem_singleton.mp listed] at control
    injection control with _ same
    exact same.symm
  have rest : Within (waitFor (.dispatch call) >>= fun failure =>
      respondOutcome q d failure >>= fun _ => perform .finishChild) reporting
      (.dispatch :: responseWaits) := by
    refine Within.bind (Within.waitFor (by simp [Request.kind])) fun failure => ?_
    refine Within.bind ((respondOutcome_within q d failure).mono (by decide) (by decide)) fun _ => ?_
    exact Within.perform (by decide)
  refine Co.eval_keeps (World.leafOracle env) (Dispatching c₀ last gone q)
    (fun c v listed h => dispatching_exec listed h) (fun req v _ h => ?_) rest issued
  cases req with
  | join => exact h
  | _ =>
      obtain ⟨_, _, answered⟩ := answered_spec v _ _
      rw [show (World.leafOracle env _ v).2 = v.answered _ _ from rfl, answered]
      exact h.undisturbed (Undisturbed.of_store rfl rfl rfl) rfl

/-- All children of a dispatch of `q`. -/
theorem going_runChildren (env : Answers) {q : Ref} (parent : Pid) (w : World)
    (tracked : Tracked c₀ last gone w) (made : q < w.store.next) (apart : Apart gone q)
    (own : ∀ pid v, w.spawned.get? pid = some v → v.1 = q) :
    Going c₀ last gone (some q) (World.runChildren env parent w) := by
  have child : ∀ pid r d rest (v : World),
      (Dispatching c₀ last gone q v ∧ ∀ e ∈ (pid, r, d) :: rest, e.2.1 = q) →
      Dispatching c₀ last gone q ((dispatchAndReport r d).final (World.leafOracle env)
        { v with spawned := v.spawned.erase pid, current := pid }) ∧ ∀ e ∈ rest, e.2.1 = q := by
    rintro pid r d rest v ⟨h, mine⟩
    obtain rfl : r = q := mine _ List.mem_cons_self
    refine ⟨dispatching_child env d ?_, fun e member => mine e (List.mem_cons_of_mem _ member)⟩
    exact h.undisturbed (Undisturbed.of_store rfl rfl rfl) rfl
  obtain ⟨v, ran, ⟨done, -⟩, idle⟩ := runChildren_induct env parent
    (fun rest v => Dispatching c₀ last gone q v ∧ ∀ e ∈ rest, e.2.1 = q) child
    ⟨⟨tracked, made, apart⟩, fun e member => own e.1 e.2 ((Dict.mem_entries_iff _ _ _).mp member)⟩
  rw [ran]
  have after : Dispatching c₀ last gone q { v with current := parent } :=
    done.undisturbed (Undisturbed.of_store rfl rfl rfl) rfl
  refine ⟨after.tracked, idle, fun p member => ?_⟩
  cases member
  exact ⟨after.made, apart⟩

/-- The calls to the devices of a group. -/
theorem keeps_dispatchByLfdiGroup (env : Answers) (q : Ref) (lfdis : List Lfdi)
    (targets : List Href) :
    Keeps env (Going c₀ last gone (some q)) (dispatchByLfdiGroup q lfdis targets) := by
  refine Keeps.get fun w going => ?_
  obtain ⟨made, apart⟩ := going.here q rfl
  generalize listed : (lfdis.map fun l =>
    Call.control (.lfdi l) (w.record q).mrid (w.record q).derc.base) = calls
  have issued : Going c₀ last gone (some q) (World.exec (.issue calls) w) := by
    refine ⟨going_issue going.tracked made apart ?_, going.idle, going.here⟩
    rintro call member t mrid base rfl
    rw [← listed] at member
    obtain ⟨l, -, same⟩ := List.mem_map.mp member
    injection same with _ same
    exact same.symm
  have waited : Within (if calls = [] then pure fun _ => none else waitFor (.gather calls))
      [] [.gather] := by
    split
    · exact Within.pure _
    · exact Within.waitFor (by simp [Request.kind])
  refine Keeps.bind (keeps_calm waited (by decide) (by decide)) (fun results => ?_) _ issued
  have reported : Within (Co.forEach targets fun d => respondOutcome q d
      (aggregateOutcome lfdis results)) [.outcome, .unregister, .claim] responseWaits :=
    Within.forEach fun d _ => respondOutcome_within q d _
  exact keeps_calm reported (by decide) (by decide)

/-- `_apply_and_respond` of a record that is there and not gone. -/
theorem keeps_applyAndRespond (env : Answers) (q : Ref) :
    Keeps env (Going c₀ last gone (some q)) (applyAndRespond q) := by
  refine Keeps.get fun w going => ?_
  dsimp only
  split
  · exact keeps_calm (postResponse_within _ _ _ _) (by decide) (by decide) w going
  · have registers : ∀ (ds : List Href) mrid modes, Within (Co.forEach ds fun d =>
        perform (.register d mrid modes)) [.register] [] :=
      fun _ _ _ => Within.forEach fun d _ => Within.perform (by simp [Cmd.effect])
    refine Keeps.bind (keeps_calm (registers _ _ _) (by decide) (by decide)) (fun _ => ?_) w going
    split
    · exact keeps_dispatchByLfdiGroup env q _ _
    · -- The children are made for `q`, since none was waiting before.
      intro w going
      obtain ⟨made, apart⟩ := going.here q rfl
      have same : ∀ ds, Undisturbed w (World.exec (.spawn q ds) w) :=
        fun ds => undisturbed_exec (by simp [Cmd.effect]) w
      refine going_runChildren env _ _
        (going.tracked.undisturbed (same _) fun _ member => .inl member)
        ((same _).next ▸ made) apart ?_
      refine spawnedFor_spawn _ w.toCore fun pid v found => ?_
      rw [going.idle pid] at found
      cases found

/-- Everything that neither makes nor forgets records nor draws offsets. -/
theorem keeps_composes (env : Answers) (r : Option Ref) :
    Composes carriers (Keeps env (Going c₀ last gone r)) where
  carries := by decide
  bind := Keeps.bind
  get := fun rest => Keeps.get fun w => rest w w
  quiet := fun within => keeps_calm within (by decide) (by decide)
  respond := fun _ _ _ _ => keeps_calm (respondFor_within _ _ _) (by decide) (by decide)
  fallback := fun r clear => keeps_calm (applyDdercFallback_within r clear) (by decide) (by decide)
  initial := fun p => keeps_calm (applyInitialDderc_within p) (by decide) (by decide)

theorem keeps_ending (env : Answers) (mrid : Mrid) (st : EventState) (_ : st.isTerminal = true) :
    Keeps env (Going c₀ last gone r) (transition mrid st) := keeps_transition env mrid st

theorem keeps_hold (env : Answers) (refs : List Ref) :
    Keeps env (Going c₀ last gone r) (perform (.hold refs)) := by
  have held : Within (perform (.hold refs)) [.hold] [] := Within.perform (by simp [Cmd.effect])
  exact keeps_calm held (by decide) (by decide)

theorem keeps_supersede (env : Answers) (map : ProgramDevices) (result : SupersessionResult) :
    Keeps env (Going c₀ last gone r) (supersede map result) :=
  (keeps_composes env r).supersede (keeps_ending env) (keeps_hold env)
    (fun marks => (keeps_composes env r).quiet (Within.perform (by rw [marks]; decide))) map result

/-! ### One served control -/

/-- A change of the offsets alone. -/
theorem Going.withOffsets (going : Going c₀ last gone r w) (cache : RandomizationCache)
    (draws : Nat → Nat × Nat)
    (offsets : ∀ o, cache.cache.get? c₀.mrid = some o →
      InField c₀.randomizeStart o.1 ∧ InField c₀.randomizeDuration o.2) :
    Going c₀ last gone r { w with offsets := cache, draws := draws } := by
  refine ⟨⟨?_, fun g member => ?_⟩, going.idle, going.here⟩
  · exact { going.tracked.once with offsets := offsets }
  · exact { going.tracked.gone g member with }

/-- The offsets of another event say nothing about this one. -/
theorem getOffsets_other (cache : RandomizationCache) {derc : Dercontrol} {mrid : Mrid}
    (other : derc.mrid ≠ mrid) (draws : Nat × Nat) :
    (cache.getOffsets derc draws).2.cache.get? mrid = cache.cache.get? mrid := by
  unfold RandomizationCache.getOffsets
  split
  · rfl
  · exact Dict.get?_set_ne _ _ (Ne.symm other)

theorem overrideStartOffset_other (cache : RandomizationCache) {derc : Dercontrol} {mrid : Mrid}
    (other : derc.mrid ≠ mrid) (offset : Int) :
    (cache.overrideStartOffset derc offset).cache.get? mrid = cache.cache.get? mrid := by
  unfold RandomizationCache.overrideStartOffset
  split
  · rfl
  · exact Dict.get?_set_ne _ _ (Ne.symm other)

/-- The offsets of the event itself are within its fields, drawn or remembered. -/
theorem getOffsets_inField (once : Once c₀ last w) {p : Href} {derc : Dercontrol}
    (alike : Alike c₀ p derc) (own : derc.mrid = c₀.mrid) (draws : Nat × Nat) :
    (InField c₀.randomizeStart (w.offsets.getOffsets derc draws).1.1 ∧
      InField c₀.randomizeDuration (w.offsets.getOffsets derc draws).1.2) ∧
    (w.offsets.getOffsets derc draws).2.cache.get? c₀.mrid =
      some (w.offsets.getOffsets derc draws).1 := by
  obtain ⟨-, -, start, duration⟩ := alike.own own
  unfold RandomizationCache.getOffsets
  cases found : w.offsets.cache.get? derc.mrid with
  | some o =>
      dsimp only
      rw [own] at found
      exact ⟨once.offsets o found, found⟩
  | none =>
      dsimp only
      rw [start, duration, own]
      refine ⟨⟨inField_computeOffset _ _, inField_computeOffset _ _⟩, ?_⟩
      exact Dict.get?_set_self _ _ _

/-- Rule m) does not apply to the event. -/
theorem successiveOffset_own (once : Once c₀ last w) {p : Href} {derc : Dercontrol}
    (alike : Alike c₀ p derc)
    (own : derc.mrid = c₀.mrid) (offset : Int) :
    w.successiveOffset p derc offset = offset := by
  unfold Core.successiveOffset
  cases found : w.findSuccessivePredecessor p derc.start with
  | none => rfl
  | some q =>
      have met := List.find?_some found
      have member := List.mem_of_find?_eq_some found
      obtain ⟨⟨mrid, stored⟩, -⟩ := EventStore.mem_allActiveStates.mp member
      simp only [decide_eq_true_eq] at met
      rw [(alike.own own).1] at met
      have made := (once.keyed mrid q stored).1
      have near := once.near q made (met.1.symm ▸ alike.program own)
      exact absurd met.2 (once.free q made near)

/-- The offsets a served control gets. -/
theorem effectiveOffsets_spec (o : Oracle ProcSig) {p : Href} {derc : Dercontrol}
    (alike : Alike c₀ p derc) (going : Going c₀ last gone r w) :
    ∃ off w', (effectiveOffsets p derc).eval o w = (some off, w') ∧ Going c₀ last gone r w' ∧
      (derc.mrid = c₀.mrid →
        InField c₀.randomizeStart off.1 ∧ InField c₀.randomizeDuration off.2) := by
  have once := going.tracked.once
  rw [eval_effectiveOffsets]
  dsimp only
  by_cases own : derc.mrid = c₀.mrid
  · obtain ⟨fields, kept⟩ := getOffsets_inField once alike own (w.draws 0)
    have after : Going c₀ last gone r (World.exec (.drawOffsets derc) w) := by
      refine going.withOffsets _ (fun n => w.draws (n + 1)) fun o found => ?_
      rw [kept] at found
      cases found
      exact fields
    rw [if_pos (successiveOffset_own after.tracked.once alike own _)]
    exact ⟨_, _, rfl, after, fun _ => fields⟩
  · have after : Going c₀ last gone r (World.exec (.drawOffsets derc) w) := by
      refine going.withOffsets _ (fun n => w.draws (n + 1)) fun o found => ?_
      rw [getOffsets_other _ own] at found
      exact once.offsets o found
    split_ifs
    · exact ⟨_, _, rfl, after, fun h => absurd h own⟩
    · refine ⟨_, _, rfl, ?_, fun h => absurd h own⟩
      refine after.withOffsets _ (fun n => w.draws (n + 1)) fun o found => ?_
      rw [overrideStartOffset_other _ own] at found
      exact after.tracked.once.offsets o found

theorem record_refresh (w : World) (q r : Ref) (derc : Dercontrol) (t : Int) :
    ((World.exec (.refresh q derc t) w).record r).end = (w.record r).end ∧
      ((World.exec (.refresh q derc t) w).record r).programHref = (w.record r).programHref ∧
      (((World.exec (.refresh q derc t) w).record r).derc = (w.record r).derc ∨
        r = q ∧ ((World.exec (.refresh q derc t) w).record r).derc = derc) := by
  change ((w.store.update q _).object r).end = _ ∧ ((w.store.update q _).object r).programHref = _ ∧
    (((w.store.update q _).object r).derc = _ ∨ r = q ∧ ((w.store.update q _).object r).derc = _)
  by_cases same : r = q
  · rw [same, EventStore.object_update_self]
    exact ⟨rfl, rfl, .inr ⟨rfl, rfl⟩⟩
  · rw [EventStore.object_update_ne _ _ same]
    exact ⟨rfl, rfl, .inl rfl⟩

/-- The server's update of a known event. -/
theorem Going.refresh (going : Going c₀ last gone r w) (q : Ref) {p : Href} {derc : Dercontrol}
    (alike : Alike c₀ p derc) (mine : (w.record q).mrid = derc.mrid) (t : Int) :
    Going c₀ last gone r (World.exec (.refresh q derc t) w) := by
  have same : EventsKept w (World.exec (.refresh q derc t) w) :=
    bystander_exec (by simp [Cmd.effect]) w
  have once := going.tracked.once
  refine ⟨⟨?_, fun g member => ?_⟩, going.idle, going.here⟩
  · refine ⟨same.keyed once.keyed, ?_, once.steady, ?_, ?_, ?_, once.offsets, ?_, ?_⟩
    · intro p late
      rw [same.state p]
      exact once.unmade p late
    · intro p made p' made' own own'
      rw [same.mrid] at own own'
      exact once.alone p made p' made' own own'
    · intro p made own absent
      rw [same.mrid] at own
      rw [(record_refresh w q p derc t).1]
      exact once.pruned p made own absent
    · intro p made own
      rw [same.mrid] at own
      rw [(record_refresh w q p derc t).1]
      exact once.ends p made own
    · intro p made
      rw [same.mrid, (record_refresh w q p derc t).2.1]
      exact once.near p made
    · intro p made near
      rw [same.mrid] at near
      rcases (record_refresh w q p derc t).2.2 with old | ⟨rfl, new⟩
      · rw [old]
        exact once.free p made near
      · rw [new]
        exact alike.free (mine ▸ near)
  · have gone_ := going.tracked.gone g member
    refine ⟨gone_.made, ?_, ?_, gone_.absent, gone_.issued⟩
    · rw [same.mrid]
      exact gone_.own
    · rw [same.state]
      exact gone_.ended

/-- A control whose event is stored. -/
theorem keeps_knownControl (env : Answers) {q : Ref} {p : Href} {derc : Dercontrol}
    (alike : Alike c₀ p derc) (stored : w.store.get? derc.mrid = some q)
    (going : Going c₀ last gone r w) :
    Going c₀ last gone r ((knownControl q derc).eval (World.oracle env) w).2 := by
  have rest : Keeps env (Going c₀ last gone r) (do
      let w ← getWorld
      if isServerCancelled derc = true ∧ (w.record q).state.isTerminal = false then do
        handleCancellation q
        stopIfClosed
      else pure false) := by
    refine Keeps.get fun w going => ?_
    split
    · refine Keeps.bind ?_ (fun _ => (keeps_composes env r).stopIfClosed) w going
      exact (keeps_composes env r).handleCancellation (keeps_ending env) q
    · exact going
  exact rest _ (going.refresh q alike (going.tracked.once.keyed _ q stored).2 _)

/-- Storing a new record: of the event itself only where none was made. -/
theorem Going.upsert (going : Going c₀ last gone none w) {record : EventRecord}
    (near : c₀.programs record.programHref → c₀.mrids record.mrid)
    (free : c₀.mrids record.mrid → record.derc.start + record.derc.duration ≠ c₀.start)
    (first : record.mrid = c₀.mrid → c₀.earliestEnd ≤ record.end ∧
      ∀ r < w.store.next, (w.record r).mrid ≠ c₀.mrid) :
    Going c₀ last gone (some w.store.next) (World.exec (.upsert record) w) := by
  have once := going.tracked.once
  have new : (World.exec (.upsert record) w).record w.store.next = record :=
    Function.update_self ..
  have old : ∀ r < w.store.next, (World.exec (.upsert record) w).record r = w.record r :=
    fun r made => Function.update_of_ne (Nat.ne_of_lt made) ..
  -- The new record is the last; of any other nothing has changed.
  have either : ∀ r < (World.exec (.upsert record) w).store.next,
      r = w.store.next ∨ r < w.store.next :=
    fun r made => (Nat.lt_succ_iff_lt_or_eq.mp made).symm
  have found : ∀ mrid, (World.exec (.upsert record) w).store.get? mrid =
      if mrid = record.mrid then some w.store.next else w.store.get? mrid :=
    fun mrid => Dict.get?_set _ _ _ _
  refine ⟨⟨?_, fun g member => ?_⟩, going.idle, fun q member => ?_⟩
  · refine ⟨exec_keyed _ w once.keyed, ?_, once.steady, ?_, ?_, ?_, once.offsets, ?_, ?_⟩
    · intro r late
      have same : (World.exec (.upsert record) w).record r = w.record r :=
        Function.update_of_ne (Nat.ne_of_gt late) ..
      rw [same]
      exact once.unmade r (Nat.le_of_succ_le late)
    · intro r made q made' own own'
      rcases either r made with rfl | before <;> rcases either q made' with rfl | before'
      · rfl
      · rw [new] at own
        rw [old q before'] at own'
        exact absurd own' ((first own).2 q before')
      · rw [new] at own'
        rw [old r before] at own
        exact absurd own ((first own').2 r before)
      · rw [old r before] at own
        rw [old q before'] at own'
        exact once.alone r before q before' own own'
    · intro r made own absent
      rw [found] at absent
      split_ifs at absent with mine
      rcases either r made with rfl | before
      · rw [new] at own
        exact absurd own.symm mine
      · rw [old r before] at own ⊢
        exact once.pruned r before own absent
    · intro r made own
      rcases either r made with rfl | before
      · rw [new] at own ⊢
        exact (first own).1
      · rw [old r before] at own ⊢
        exact once.ends r before own
    · intro r made
      rcases either r made with rfl | before
      · rw [new]
        exact near
      · rw [old r before]
        exact once.near r before
    · intro r made
      rcases either r made with rfl | before
      · rw [new]
        exact free
      · rw [old r before]
        exact once.free r before
  · have gone_ := going.tracked.gone g member
    refine ⟨Nat.lt_succ_of_lt gone_.made, ?_, ?_, ?_, gone_.issued⟩
    · rw [old _ gone_.made]
      exact gone_.own
    · rw [old _ gone_.made]
      exact gone_.ended
    · rw [found, if_neg fun mine => (first mine.symm).2 g.1 gone_.made gone_.own]
      exact gone_.absent
  · cases member
    refine ⟨Nat.lt_succ_self _, fun g member => ?_⟩
    exact Nat.ne_of_gt (going.tracked.gone g member).made

theorem Going.forget (going : Going c₀ last gone r w) : Going c₀ last gone none w :=
  ⟨going.tracked, going.idle, fun _ member => nomatch member⟩

/-- A new event, once it is allowed into the store. -/
theorem keeps_storeNew (env : Answers) (p : Href) (derc : Dercontrol) {record : EventRecord}
    (near : c₀.programs record.programHref → c₀.mrids record.mrid)
    (free : c₀.mrids record.mrid → record.derc.start + record.derc.duration ≠ c₀.start)
    (first : record.mrid = c₀.mrid → c₀.earliestEnd ≤ record.end ∧
      ∀ r < w.store.next, (w.record r).mrid ≠ c₀.mrid)
    (going : Going c₀ last gone none w) :
    Going c₀ last gone none ((storeNew p derc record).eval (World.oracle env) w).2 := by
  have composes : Composes carriers (Keeps env (Going c₀ last gone (some w.store.next))) :=
    keeps_composes env _
  change Going c₀ last gone none (Co.eval (World.oracle env) (if _ then _ else _) w).2
  split
  · refine Going.forget (r := some w.store.next) ?_
    refine Keeps.bind ?_ (fun _ => composes.stopIfClosed) _ (going.upsert near free first)
    exact keeps_calm (postResponse_within _ _ _ _) (by decide) (by decide)
  · refine Going.forget (r := some w.store.next) ?_
    have set_ : Keeps env (Going c₀ last gone (some w.store.next)) (do
        perform (.clearDderc ((w.devicesOf p).filterMap w.deviceLfdi))
        introduce record.state w.store.next
        stopIfClosed) := by
      refine composes.bind (composes.perform (by simp [Cmd.effect])) fun _ => ?_
      refine composes.bind ?_ fun _ => composes.stopIfClosed
      refine composes.introduce _ ?_
      exact composes.handleLateDiscovery (keeps_supersede env) (keeps_applyAndRespond env _)
    exact set_ _ (going.upsert near free first)

/-- The ends the offsets of a control can give it. -/
theorem Dercontrol.end_bounds {c : Dercontrol} {off : Int × Int}
    (start : InField c.randomizeStart off.1) (duration : InField c.randomizeDuration off.2) :
    c.earliestEnd ≤ c.start + off.1 + (c.duration + off.2) ∧
      c.start + off.1 + (c.duration + off.2) ≤ c.latestEnd := by
  unfold InField at start duration
  unfold Dercontrol.earliestEnd Dercontrol.latestEnd
  omega

/-- Once a record was made and is gone, every end there could be is over. -/
theorem expired_of_pruned (narrow : c₀.spread ≤ 60) (once : Once c₀ last w) {q : Ref}
    (made : q < w.store.next) (own : (w.record q).mrid = c₀.mrid)
    (absent : w.store.get? c₀.mrid = none) : c₀.latestEnd < last := by
  have pruned := once.pruned q made own absent
  have ends := once.ends q made own
  rw [c₀.latestEnd_eq]
  omega

/-- A control whose event is not stored. -/
theorem keeps_newControl (env : Answers) (narrow : c₀.spread ≤ 60) (p : Href) (primacy : Nat)
    {derc : Dercontrol} (alike : Alike c₀ p derc) {off : Int × Int}
    (fields : derc.mrid = c₀.mrid →
      InField c₀.randomizeStart off.1 ∧ InField c₀.randomizeDuration off.2)
    (absent : w.store.get? derc.mrid = none) (going : Going c₀ last gone none w) :
    Going c₀ last gone none ((newControl p primacy last derc (derc.start + off.1)
      (derc.duration + off.2)).eval (World.oracle env) w).2 := by
  have composes : Composes carriers (Keeps env (Going c₀ last gone none)) := keeps_composes env _
  change Going c₀ last gone none (Co.eval (World.oracle env) (if _ then _ else _) w).2
  split
  · exact going
  · split
    · split
      · exact going
      · refine composes.bind ?_ (fun _ => composes.stopIfClosed) w going
        exact keeps_calm (postResponse_within _ _ _ _) (by decide) (by decide)
    · rename_i current
      refine keeps_storeNew env p derc alike.near alike.free (fun own => ?_) going
      -- Were there a record, it would be gone and so would every end.
      have own : derc.mrid = c₀.mrid := own
      obtain ⟨start, duration, -, -⟩ := alike.own own
      obtain ⟨inStart, inDuration⟩ := fields own
      obtain ⟨early, late⟩ := Dercontrol.end_bounds inStart inDuration
      rw [start, duration] at current
      refine ⟨?_, fun q made mine => ?_⟩
      · change c₀.earliestEnd ≤ derc.start + off.1 + (derc.duration + off.2)
        rw [start, duration]
        exact early
      · rw [own] at absent
        have over_ := expired_of_pruned narrow going.tracked.once made mine absent
        omega

/-- One round of the loop over the served controls. -/
theorem keeps_processControl (env : Answers) (narrow : c₀.spread ≤ 60) (p : Href) (primacy : Nat)
    {derc : Dercontrol} (alike : Alike c₀ p derc) :
    Keeps env (Going c₀ last gone none) (processControl p primacy last derc) := by
  intro w going
  obtain ⟨off, w', drawn, going', fields⟩ := effectiveOffsets_spec (World.oracle env) alike going
  unfold processControl
  rw [Co.bind_eq, Co.eval_bind, drawn]
  dsimp only
  rw [eval_getWorld]
  cases stored : w'.store.get? derc.mrid with
  | some q => exact keeps_knownControl env alike stored going'
  | none => exact keeps_newControl env narrow p primacy alike fields stored going'

/-- What pruning forgets is over for more than the grace period. -/
theorem Going.pruneStore (going : Going c₀ last gone r w) :
    Going c₀ last gone r (World.exec (.pruneStore last) w) := by
  have once := going.tracked.once
  refine ⟨⟨?_, fun g member => ?_⟩, going.idle, going.here⟩
  · refine { once with keyed := exec_keyed _ w once.keyed, pruned := fun q made own absent => ?_ }
    cases stored : w.store.get? c₀.mrid with
    | none => exact once.pruned q made own stored
    | some q' =>
        obtain ⟨made', own'⟩ := once.keyed c₀.mrid q' stored
        have same := once.alone q made q' made' own own'
        have kept : (w.store.pruneExpired last).get? c₀.mrid = none := absent
        unfold EventStore.get? at stored
        simp only [EventStore.get?, EventStore.pruneExpired, Dict.get?_filter, stored,
          Option.filter_some, ite_eq_right_iff, Bool.not_eq_true', decide_eq_false_iff_not,
          reduceCtorEq, imp_false, not_not] at kept
        rw [same]
        exact kept
  · have gone_ := going.tracked.gone g member
    refine { gone_ with absent := ?_ }
    cases stored : (World.exec (.pruneStore last) w).store.get? c₀.mrid with
    | none => rfl
    | some q =>
        have before := EventStore.get?_pruneExpired stored
        rw [gone_.absent] at before
        cases before

theorem Going.pruneOffsets (going : Going c₀ last gone r w) (now : Int) :
    Going c₀ last gone r (World.exec (.pruneOffsets now) w) := by
  refine going.withOffsets (w.offsets.prune now) w.draws fun o found => ?_
  unfold RandomizationCache.prune at found
  rw [Dict.get?_filter] at found
  exact going.tracked.once.offsets o (Option.filter_eq_some_iff.mp found).1

/-- The end of a poll at time `last`. -/
theorem keeps_finishPoll (env : Answers) (p : Href) :
    Keeps env (Going c₀ last gone none) (finishPoll p last) := by
  have composes : Composes carriers (Keeps env (Going c₀ last gone none)) := keeps_composes env _
  refine composes.bind (composes.runSupersession (keeps_supersede env)) fun _ => ?_
  refine composes.unlessClosed ?_
  refine composes.bind (fun w going => going.pruneStore) fun _ => ?_
  refine composes.bind (fun w going => going.pruneOffsets _) fun _ => ?_
  refine composes.bind (fun w going => ?_) fun _ => composes.initial p
  exact going.undisturbed (Undisturbed.of_store rfl rfl rfl) going.idle fun _ member => .inl member

/-- A control poll. -/
theorem keeps_processControls (env : Answers) (narrow : c₀.spread ≤ 60) (p : Href) (room : Nat)
    (going : Going c₀ (w.now p) gone none w) :
    Going c₀ (w.now p) gone none ((processControls p room).eval (World.oracle env) w).2 := by
  have served : ∀ v : World, Going c₀ (w.now p) gone none v → ∀ q ps, True →
      v.discovered.derPrograms.get? q = some ps →
      True ∧ ∀ c ∈ ps.derControls, Alike c₀ q c ∧ Alike c₀ ps.href c :=
    fun v h q ps _ found => ⟨trivial, h.tracked.once.steady q ps found⟩
  refine Keeps.processControls served room trivial
    (fun q primacy derc _ alike => keeps_processControl env narrow q primacy alike)
    (fun ps epoch => ?_) (fun _ kept => kept) (keeps_finishPoll env p) going
  exact (keeps_composes env none).reconcileServed (keeps_ending env) (keeps_hold env) _ _ _

/-- A timer: an event that has not ended is there and not gone. -/
theorem keeps_fireTimer (env : Answers) (callback : Callback) (q : Ref) :
    Keeps env (Going c₀ last gone none) (fireTimer callback q) := by
  intro w going
  by_cases ended : (w.record q).state.isTerminal = true
  · change Going c₀ last gone none (Co.eval (World.oracle env) (if _ then _ else _) w).2
    rw [if_pos ended]
    exact going
  · refine Going.forget (r := some q) ?_
    have waking : Keeps env (Going c₀ last gone (some q)) (onActivation q) :=
      (keeps_composes env (some q)).onActivation (fun mrid => keeps_transition env mrid .active)
        (keeps_supersede env) (keeps_applyAndRespond env q)
    refine (keeps_composes env (some q)).fireTimer (keeps_ending env) callback waking w
      ⟨going.tracked, going.idle, fun r member => ?_⟩
    cases member
    refine ⟨?_, fun g member same => ?_⟩
    · by_contra late
      exact ended (going.tracked.once.unmade q (Nat.le_of_not_lt late))
    · rw [same] at ended
      exact ended (going.tracked.gone g member).ended

theorem going_begins {pid : Pid} {j : Job} (begun : w.begins pid j = some w')
    (going : Going c₀ last gone r w) :
    Going c₀ last gone r w' ∧ (∀ q d, j ≠ .dispatchAndReport q d) ∧ ∀ p, w'.now p = w.now p := by
  obtain ⟨noChild, _, _, rfl⟩ := begins_of_idle going.idle begun
  refine ⟨?_, noChild, fun p => rfl⟩
  exact going.undisturbed (Undisturbed.of_store rfl rfl rfl) going.idle fun _ member => .inl member

/-- A task other than a poll, alone. -/
theorem going_job {env : Answers} {pid : Pid} {j : Job}
    (noPoll : ∀ p room, j ≠ .processControls p room) (ran : w.alone env pid j = some w')
    (going : Going c₀ last gone none w) : Going c₀ last gone none w' := by
  have composes : Composes carriers (Keeps env (Going c₀ last gone none)) := keeps_composes env _
  obtain ⟨begun, starts, rfl⟩ := Option.map_eq_some_iff.mp ran
  obtain ⟨going, noChild, -⟩ := going_begins starts going
  cases j with
  | processControls p room => exact absurd rfl (noPoll p room)
  | dispatchAndReport q d => exact absurd rfl (noChild q d)
  | cancelProgram p => exact composes.cancelProgram (keeps_ending env) p begun going
  | enterCommsLoss => exact composes.enterCommsLoss begun going
  | shutdown => exact composes.perform (c := .close) (by simp [Cmd.effect]) begun going
  | timer callback q => exact keeps_fireTimer env callback q begun going

/-- A poll, alone, at a time not before the last. -/
theorem going_poll {env : Answers} {pid : Pid} {p : Href} {room : Nat} (narrow : c₀.spread ≤ 60)
    (forward : last ≤ w.now p) (ran : w.alone env pid (.processControls p room) = some w')
    (going : Going c₀ last gone none w) : Going c₀ (w.now p) gone none w' := by
  obtain ⟨begun, starts, rfl⟩ := Option.map_eq_some_iff.mp ran
  obtain ⟨going, -, time⟩ := going_begins starts going
  rw [← time p] at forward ⊢
  refine keeps_processControls env narrow p room ⟨?_, going.idle, going.here⟩
  exact ⟨going.tracked.once.later forward, going.tracked.gone⟩

theorem going_ext (e : Ext) (steady : Steady c₀ (e.apply w.toCore).discovered)
    (going : Going c₀ last gone none w) :
    Going c₀ last gone none { w with toCore := e.apply w.toCore } := by
  have once := going.tracked.once
  cases e <;> exact ⟨⟨{ once with steady := steady },
    fun g member => { going.tracked.gone g member with }⟩, going.idle, going.here⟩

end Calm

/-! ### Whole runs -/

/-- The server keeps serving the control, and everything runs one after the
other: polls at times that do not go back, timers and all else at any time. The
two numbers are the times of the last polls. -/
inductive Served (c₀ : Watched) : Int → World → Int → World → Prop where
  | refl (last : Int) (w : World) : Served c₀ last w last w
  | poll {a b : Int} {u v w : World} (env : Answers) (pid : Pid) (p : Href) (room : Nat) :
      Served c₀ a u b v → b ≤ v.now p → v.alone env pid (.processControls p room) = some w →
      Served c₀ a u (v.now p) w
  | job {a b : Int} {u v w : World} (env : Answers) (pid : Pid) (j : Job) :
      Served c₀ a u b v → (∀ p room, j ≠ .processControls p room) →
      v.alone env pid j = some w → Served c₀ a u b w
  | ext {a b : Int} {u v : World} (e : Ext) :
      Served c₀ a u b v → Steady c₀ (e.apply v.toCore).discovered →
      Served c₀ a u b { v with toCore := e.apply v.toCore }

theorem going_of_served {c₀ : Watched} {gone : Option (Ref × List Issued)} {a b : Int}
    {u v : World} (narrow : c₀.spread ≤ 60) (run : Served c₀ a u b v)
    (going : Going c₀ a gone none u) : Going c₀ b gone none v := by
  induction run with
  | refl => exact going
  | poll env pid p room _ forward ran ih => exact going_poll narrow forward ran (ih going)
  | job env pid j _ noPoll ran ih => exact going_job noPoll ran (ih going)
  | ext e _ steady ih => exact going_ext e steady (ih going)

theorem Core.Fresh.going {c₀ : Watched} {core : Core} (fresh : core.Fresh)
    (steady : Steady c₀ core.discovered) (last : Int) :
    Going c₀ last none none { toCore := core } := by
  have nothing : core.store.next = 0 := by rw [fresh.store]
  have none_ : ∀ r, ¬ r < core.store.next := by
    intro r made
    rw [nothing] at made
    exact Nat.not_lt_zero r made
  refine ⟨⟨?_, fun g member => nomatch member⟩, fun pid => ?_, fun q member => nomatch member⟩
  · refine ⟨fresh.keyed, fun r _ => ?_, steady, fun r made => absurd made (none_ r),
      fun r made => absurd made (none_ r), fun r made => absurd made (none_ r), fun o found => ?_,
      fun r made => absurd made (none_ r), fun r made => absurd made (none_ r)⟩
    · change (core.store.object r).state.isTerminal = true
      rw [fresh.store]
      rfl
    · change core.offsets.cache.get? c₀.mrid = some o at found
      rw [fresh.offsets] at found
      cases found
  · change core.spawned.get? pid = none
    rw [fresh.spawned]
    rfl

/-- While the randomization fields of a control together span at most the 60 s
its record outlives it, and no control of a program that may serve it ends
exactly where it starts, it gets one record at most; and after that record has ended and was pruned, no
later poll stores the event or dispatches its control again. -/
theorem event_runs_once {c₀ : Watched} {core : Core} (fresh : core.Fresh)
    (steady : Steady c₀ core.discovered) (narrow : c₀.spread ≤ 60) {first last : Int} {w : World}
    (run : Served c₀ first { toCore := core } last w) :
    (∀ r < w.store.next, ∀ q < w.store.next, (w.record r).mrid = c₀.mrid →
      (w.record q).mrid = c₀.mrid → r = q) ∧
    ∀ r < w.store.next, (w.record r).mrid = c₀.mrid → (w.record r).state.isTerminal = true →
      w.store.get? c₀.mrid = none → ∀ later w', Served c₀ last w later w' →
        w'.store.get? c₀.mrid = none ∧ (w'.record r).state.isTerminal = true ∧
        (∀ q < w'.store.next, (w'.record q).mrid = c₀.mrid → q = r) ∧
        ∀ e ∈ w'.issued, e ∈ w.issued ∨ ∀ t base, e.call ≠ .control t c₀.mrid base := by
  have going := going_of_served narrow run (fresh.going steady first)
  refine ⟨going.tracked.once.alone, fun r made own ended absent later w' rest => ?_⟩
  have lost : Going c₀ last (some (r, w.issued)) none w := by
    refine ⟨⟨going.tracked.once, fun g member => ?_⟩, going.idle, fun q member => nomatch member⟩
    cases member
    exact ⟨made, own, ended, absent, fun e member => .inl member⟩
  have after := going_of_served narrow rest lost
  have gone := after.tracked.gone _ rfl
  refine ⟨gone.absent, gone.ended, fun q made' own' => ?_, gone.issued⟩
  exact after.tracked.once.alone q made' r gone.made own' gone.own

/-! ### The same event twice -/

/-- An event of 100 s with a randomized start. -/
def spreadControl (field : Int) : Dercontrol :=
  { plainControl 1 0 100 .opModFixedW with randomizeStart := some field }

/-- A processor for it, and for another program whose event ends where this one
starts. The third draw is the whole field, the others are 0. -/
def spreadCore (field : Int) : Core :=
  { plainCore
      [plainProgram "/derp/1" 1 [spreadControl field],
        plainProgram "/derp/2" 1 [plainControl 2 (-100) 100 .opModFixedW]]
      [("/derp/1", "/edev/1"), ("/derp/2", "/edev/2")] with
    draws := fun n => if n = 2 then (field.natAbs, 0) else (0, 0) }

/-- Only its own program serves it. -/
def spreadWatched (field : Int) : Watched :=
  { spreadControl field with programs := fun p => p = "/derp/1", mrids := fun mrid => mrid = 1 }

/-- The event is started at time 0, -/
def startedWorld (field : Int) : World := World.polled "/derp/1" { toCore := spreadCore field }

/-- completed at its end, -/
def completedWorld (field : Int) : World := World.fired 3 ((startedWorld field).atTime 100)

/-- pruned by a poll 61 s later, -/
def prunedWorld (field : Int) : World := World.polled "/derp/1" ((completedWorld field).atTime 161)

/-- and polled once more at the same time. -/
def polledAgain (field : Int) : World := World.polled "/derp/1" (prunedWorld field)

theorem steady_spreadCore (field : Int) :
    Steady (spreadWatched field) (spreadCore field).discovered := by
  intro p ps found c member
  have found : (if "/derp/1" = p then some (plainProgram "/derp/1" 1 [spreadControl field])
    else if "/derp/2" = p then
      some (plainProgram "/derp/2" 1 [plainControl 2 (-100) 100 .opModFixedW])
    else none) = some ps := found
  split_ifs at found with first second
  · cases found
    subst first
    rw [List.mem_singleton.mp member]
    have alike : Alike (spreadWatched field) "/derp/1" (spreadControl field) :=
      ⟨fun _ => ⟨rfl, rfl, rfl, rfl⟩, fun _ => rfl, fun _ => rfl,
        fun _ => show (0 : Int) + 100 ≠ 0 by decide⟩
    exact ⟨alike, alike⟩
  · cases found
    subst second
    rw [List.mem_singleton.mp member]
    have other : (2 : Mrid) ≠ 1 := by decide
    have alike : Alike (spreadWatched field) "/derp/2"
        (plainControl 2 (-100) 100 .opModFixedW) :=
      ⟨fun own => absurd own other, fun own => absurd own other,
        fun own => absurd own (show ("/derp/2" : Href) ≠ "/derp/1" by decide),
        fun own => absurd own other⟩
    exact ⟨alike, alike⟩

theorem Served.polled {c₀ : Watched} {a b now : Int} {u v : World} {p : Href}
    (run : Served c₀ a u b v) (time : v.now p = now) (forward : b ≤ now) :
    Served c₀ a u now (v.polled p) := by
  subst time
  refine .poll {} v.nextPid p 0 run forward ?_
  simp [World.alone, World.begins, Core.begins, World.polled]

theorem Served.atTime {c₀ : Watched} {a b : Int} {u v : World} (run : Served c₀ a u b v)
    (now : Int) (steady : Steady c₀ v.discovered) : Served c₀ a u b (v.atTime now) :=
  .ext (.clocks (fun _ => now) now) run steady

/-- Where the completion fires, all of this is a run. -/
theorem served_pruned {field : Int}
    (started : (startedWorld field).discovered = (spreadCore field).discovered)
    (ended : (completedWorld field).discovered = (spreadCore field).discovered)
    (fires : ((startedWorld field).atTime 100).alone {} 3 (.timer .completion 0) =
      some (completedWorld field)) :
    Served (spreadWatched field) 0 { toCore := spreadCore field } 161 (prunedWorld field) := by
  have steady := steady_spreadCore field
  have polled : Served (spreadWatched field) 0 { toCore := spreadCore field } 0
      (startedWorld field) := Served.polled (.refl 0 _) rfl le_rfl
  have due := polled.atTime 100 (by rw [started]; exact steady)
  have completed := due.job {} 3 (.timer .completion 0) nofun fires
  have later := completed.atTime 161 (by rw [ended]; exact steady)
  exact later.polled rfl (by decide)

/-- With a field of 60 s the event is not stored a second time. -/
theorem spread60_runs_once :
    ((prunedWorld 60).record 0).state = .completed ∧ (prunedWorld 60).store.get? 1 = none ∧
      (polledAgain 60).store.get? 1 = none := by
  have ended : ((prunedWorld 60).record 0).state = .completed := by decide
  have pruned : (prunedWorld 60).store.get? 1 = none := by decide
  have fresh : (spreadCore 60).Fresh := by constructor <;> rfl
  have once := event_runs_once fresh (steady_spreadCore 60) (by decide) (served_pruned rfl rfl rfl)
  have again : Served (spreadWatched 60) 161 (prunedWorld 60) 161 (polledAgain 60) :=
    Served.polled (.refl 161 _) rfl le_rfl
  have over_ : ((prunedWorld 60).record 0).state.isTerminal = true := by rw [ended]; rfl
  exact ⟨ended, pruned, (once.2 0 (by decide) (by decide) over_ pruned 161 _ again).1⟩

/-- With a field of 61 s it is stored again, ACTIVE, and its control is
dispatched again. -/
theorem spread61_runs_twice :
    Served (spreadWatched 61) 0 { toCore := spreadCore 61 } 161 (prunedWorld 61) ∧
      ((prunedWorld 61).record 0).state = .completed ∧ (prunedWorld 61).store.get? 1 = none ∧
      Served (spreadWatched 61) 161 (prunedWorld 61) 161 (polledAgain 61) ∧
      (polledAgain 61).store.get? 1 = some 1 ∧ ((polledAgain 61).record 1).state = .active ∧
      (polledAgain 61).issued.map (·.call) =
        [.control (.href "/edev/1") 1 (spreadControl 61).base,
          .disableModes (.href "/edev/1") {.opModFixedW} 1,
          .control (.href "/edev/1") 1 (spreadControl 61).base] := by
  refine ⟨served_pruned rfl rfl rfl, by decide, by decide, ?_, by decide +kernel,
    by decide +kernel, by decide +kernel⟩
  exact Served.polled (.refl 161 _) rfl le_rfl

end Py20305
