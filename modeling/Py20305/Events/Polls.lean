import Py20305.Events.Alone

/-!
What the rounds of a poll store of the controls they are served, where the poll runs alone.

A control that is new and has not started is stored as `World.waiting` has it; one that is stored
as it is served stays so. `eval_served`: after such rounds (`Rounds`) the store is the one before
with the new events in it, in the order of the list.
-/

namespace Py20305

open Coroutine Co

/-- `v` has the events and the programs of `w`, and is open if `w` is. -/
structure World.Beside (w v : World) : Prop where
  store : v.store = w.store
  discovered : v.discovered = w.discovered
  epoch : v.epoch = w.epoch
  closed : v.closed = w.closed

/-- The kinds of commands that touch neither the events nor the programs. -/
def asides : List Effect :=
  [.claim, .unregister, .issue, .recordDefault, .cancelTimers, .schedule, .clearDefaults, .offsets]

namespace World.Beside

theorem refl (w : World) : w.Beside w := ⟨rfl, rfl, rfl, rfl⟩

theorem trans {u v w : World} (first : u.Beside v) (second : v.Beside w) : u.Beside w :=
  ⟨second.store.trans first.store, second.discovered.trans first.discovered,
    second.epoch.trans first.epoch, second.closed.trans first.closed⟩

theorem exec {u v : World} (beside : u.Beside v) {c : Cmd} (aside : c.effect ∈ asides) :
    u.Beside (World.exec c v) := by
  cases c <;>
    first
      | exact ⟨beside.store, beside.discovered, beside.epoch, beside.closed⟩
      | simp [Cmd.effect, asides] at aside

theorem upsert {u v : World} (beside : u.Beside v) (record : EventRecord) :
    (World.exec (.upsert record) u).Beside (World.exec (.upsert record) v) :=
  ⟨congrArg (·.upsert record) beside.store, beside.discovered, beside.epoch, beside.closed⟩

theorem stored {u v : World} (beside : u.Beside v) (batch : List EventRecord) :
    (batch.foldl (fun w record => World.exec (.upsert record) w) u).Beside
      (batch.foldl (fun w record => World.exec (.upsert record) w) v) := by
  induction batch generalizing u v with
  | nil => exact beside
  | cons record rest ih => exact ih (beside.upsert record)

end World.Beside

/-- Storing new events leaves the rest as it is. -/
theorem stored_frame (batch : List EventRecord) (w : World) :
    let v := batch.foldl (fun w record => World.exec (.upsert record) w) w
    v.discovered = w.discovered ∧ v.epoch = w.epoch ∧ v.closed = w.closed ∧
      (w.store.Keyed → v.store.Keyed) := by
  induction batch generalizing w with
  | nil => exact ⟨rfl, rfl, rfl, id⟩
  | cons record rest ih =>
      obtain ⟨discovered, epoch, closed, keyed⟩ := ih (World.exec (.upsert record) w)
      exact ⟨discovered, epoch, closed, fun before => keyed (EventStore.keyed_upsert before record)⟩

section Rounds

variable {env : Answers} {w : World} {p : Href} {primacy : Nat} {now : Int} {derc : Dercontrol}

/-- What touches neither the events nor the programs and does not raise. -/
theorem eval_beside {α : Type} {m : Proc α} {es : List Effect} {ws : List Await} (env : Answers)
    (within : Within m es ws) (effects : es ⊆ asides) (waits : ws ⊆ calm) (w : World) :
    ∃ a v, m.eval (World.oracle env) w = (some a, v) ∧ w.Beside v := by
  obtain ⟨a, returned⟩ := Co.eval_returns (World.oracle env) within w
  have kept : Keeps env w.Beside m := by
    refine Keeps.of_within within waits (fun c v listed beside => beside.exec (effects listed)) ?_
    intro q a v beside
    obtain ⟨_, _, answered⟩ := answered_spec v q a
    rw [answered]
    exact ⟨beside.store, beside.discovered, beside.epoch, beside.closed⟩
  exact ⟨a, _, Prod.ext returned rfl, kept w (.refl w)⟩

/-- The offsets a poll gives a control. -/
def World.offsetsOf (w : World) (p : Href) (derc : Dercontrol) : Int × Int :=
  let drawn := (w.offsets.getOffsets derc (w.draws 0)).1
  ((World.exec (.drawOffsets derc) w).successiveOffset p derc drawn.1, drawn.2)

/-- The event a poll makes of a new control that has not started. -/
def World.waiting (w : World) (p : Href) (primacy : Nat) (derc : Dercontrol) : EventRecord :=
  newRecord derc p primacy .scheduled (derc.start + (w.offsetsOf p derc).1)
    (derc.duration + (w.offsetsOf p derc).2)

/-- The control is new, and its event has not started. -/
structure World.Waits (w : World) (p : Href) (primacy : Nat) (now : Int) (derc : Dercontrol) :
    Prop where
  new : w.store.get? derc.mrid = none
  standing : isServerCancelled derc = false
  later : now < (w.waiting p primacy derc).start
  lasting : now ≤ (w.waiting p primacy derc).end
  resumed : ∀ boundary ∈ w.resumeAfter, boundary < (w.waiting p primacy derc).start

/-- The control is stored as it is served. -/
def World.Known (w : World) (derc : Dercontrol) : Prop :=
  isServerCancelled derc = false ∧ ∃ r, w.store.get? derc.mrid = some r ∧
    (w.record r).refreshed derc ((derc.eventStatus.bind (·.dateTime)).getD 0) = w.record r

/-- The state after a control's round. -/
def World.round (env : Answers) (p : Href) (primacy : Nat) (now : Int) (derc : Dercontrol)
    (w : World) : World :=
  ((processControl p primacy now derc).eval (World.oracle env) w).2

theorem eval_offsets (env : Answers) (w : World) (p : Href) (derc : Dercontrol) :
    ∃ v, (effectiveOffsets p derc).eval (World.oracle env) w = (some (w.offsetsOf p derc), v) ∧
      w.Beside v ∧ v.resumeAfter = w.resumeAfter := by
  rw [eval_effectiveOffsets]
  dsimp only
  have drawn : w.Beside (World.exec (.drawOffsets derc) w) :=
    (World.Beside.refl w).exec (by simp [Cmd.effect, asides])
  split
  · rename_i same
    refine ⟨_, ?_, drawn, rfl⟩
    rw [World.offsetsOf, same]
  · exact ⟨_, rfl, drawn.exec (by simp [Cmd.effect, asides]), rfl⟩

/-- The round of a new control stores its event. -/
theorem eval_round_new (env : Answers) (working : w.closed = false)
    (waits : w.Waits p primacy now derc) :
    ∃ v, (processControl p primacy now derc).eval (World.oracle env) w = (some false, v) ∧
      (World.exec (.upsert (w.waiting p primacy derc)) w).Beside v := by
  obtain ⟨u, offset, beside, resumed⟩ := eval_offsets env w p derc
  have absent : u.store.get? derc.mrid = none := by
    rw [beside.store]
    exact waits.new
  have running : u.resumeAfter.any (derc.start + (w.offsetsOf p derc).1 ≤ ·) = false := by
    rw [Option.any_eq_false, resumed]
    intro boundary found
    exact decide_eq_false (not_le.mpr (waits.resumed boundary found))
  have lasting : ¬ derc.start + (w.offsetsOf p derc).1 +
      (derc.duration + (w.offsetsOf p derc).2) < now := not_lt.mpr waits.lasting
  have later : ¬ derc.start + (w.offsetsOf p derc).1 ≤ now := not_le.mpr waits.later
  -- The event is stored; what follows touches neither events nor programs.
  have rest : Within (do
      perform (.clearDderc ((u.devicesOf p).filterMap u.deviceLfdi))
      introduce .scheduled u.store.next : Proc Unit)
      [.clearDefaults, .claim, .schedule] responseWaits := by
    refine Within.bind (Within.perform (by simp [Cmd.effect])) fun _ => ?_
    exact (handleNewScheduled_within _).mono (by decide) (by decide)
  obtain ⟨_, v, ran, after⟩ := eval_beside env rest (by decide) (by decide)
    (World.exec (.upsert (w.waiting p primacy derc)) u)
  have stored := (beside.upsert (w.waiting p primacy derc)).trans after
  refine ⟨v, ?_, stored⟩
  have still : v.closed = false := stored.closed.trans working
  rw [processControl, Co.bind_eq, Co.eval_bind, offset]
  dsimp only
  rw [eval_getWorld, absent]
  change Co.eval (World.oracle env) (if _ then _ else if _ then _ else storeNew _ _ _) u = _
  rw [if_neg (Bool.eq_false_iff.mp running), if_neg lasting, if_neg later]
  change Co.eval (World.oracle env) (if isServerCancelled derc = true then _ else _) u = _
  rw [if_neg (Bool.eq_false_iff.mp waits.standing)]
  change Co.eval (World.oracle env) (Co.bind (perform (.clearDderc _) >>= fun _ =>
    introduce .scheduled u.store.next) fun _ => stopIfClosed)
    (World.exec (.upsert (w.waiting p primacy derc)) u) = _
  rw [Co.eval_bind, ran]
  exact congrArg (fun closed => (some closed, v)) still

/-- The round of a control that is stored as served. -/
theorem eval_round_known (env : Answers) (p : Href) (primacy : Nat) (now : Int)
    (known : w.Known derc) :
    ∃ v, (processControl p primacy now derc).eval (World.oracle env) w = (some false, v) ∧
      w.Beside v := by
  obtain ⟨standing, r, found, same⟩ := known
  obtain ⟨u, offset, beside, -⟩ := eval_offsets env w p derc
  have refreshed : w.Beside (World.exec
      (.refresh r derc ((derc.eventStatus.bind (·.dateTime)).getD 0)) u) := by
    refine ⟨?_, beside.discovered, beside.epoch, beside.closed⟩
    change u.store.update r _ = w.store
    rw [beside.store]
    have unchanged : (w.store.object r).refreshed derc
      ((derc.eventStatus.bind (·.dateTime)).getD 0) = w.store.object r := same
    unfold EventStore.update
    rw [unchanged, Function.update_eq_self]
  refine ⟨_, ?_, refreshed⟩
  rw [processControl, Co.bind_eq, Co.eval_bind, offset]
  dsimp only
  rw [eval_getWorld, beside.store, found]
  change Co.eval (World.oracle env) (if isServerCancelled derc = true ∧ _ then _ else _) _ = _
  rw [if_neg fun both => Bool.eq_false_iff.mp standing both.1]
  rfl

/-- The rounds of a poll that finds the events of `batch` new, before they start, and the others as
they are stored. -/
inductive Rounds (env : Answers) (p : Href) (primacy : Nat) (now : Int) :
    List Dercontrol → World → List EventRecord → Prop where
  | done (w : World) : Rounds env p primacy now [] w []
  | known {w : World} {derc : Dercontrol} {rest : List Dercontrol} {batch : List EventRecord} :
      w.Known derc → Rounds env p primacy now rest (w.round env p primacy now derc) batch →
      Rounds env p primacy now (derc :: rest) w batch
  | new {w : World} {derc : Dercontrol} {rest : List Dercontrol} {batch : List EventRecord} :
      w.Waits p primacy now derc →
      Rounds env p primacy now rest (w.round env p primacy now derc) batch →
      Rounds env p primacy now (derc :: rest) w (w.waiting p primacy derc :: batch)

theorem Rounds.mrids {controls : List Dercontrol} {batch : List EventRecord}
    (rounds : Rounds env p primacy now controls w batch) :
    ∀ record ∈ batch, record.mrid ∈ controls.map (·.mrid) ∧ record.programHref = p := by
  induction rounds with
  | done => exact fun _ member => absurd member List.not_mem_nil
  | known _ _ ih =>
      intro record member
      exact ⟨List.mem_cons_of_mem _ (ih record member).1, (ih record member).2⟩
  | new _ _ ih =>
      intro record member
      rcases List.mem_cons.mp member with rfl | later
      · exact ⟨List.mem_cons_self, rfl⟩
      · exact ⟨List.mem_cons_of_mem _ (ih record later).1, (ih record later).2⟩

theorem World.Beside.objectOf {u v : World} (beside : u.Beside v) (epoch : Nat)
    (ps : DerProgramState) : v.objectOf epoch ps = u.objectOf epoch ps := by
  unfold Core.objectOf
  rw [beside.discovered, beside.epoch]

/-- A round that goes on is followed by the next one. -/
theorem eval_processServed {ps : DerProgramState} {epoch i n : Nat} {rest : List Dercontrol}
    {u v : World} (own : w.objectOf epoch ps = ps) (left : ps.derControls.drop i = derc :: rest)
    (enough : ps.derControls.length ≤ i + n)
    (ran : (processControl ps.href primacy now derc).eval (World.oracle env) w = (some false, u))
    (later : ∀ m, ps.derControls.length ≤ i + 1 + m → ps.derControls.drop (i + 1) = rest →
      ∃ v', (processServed ps epoch primacy now (i + 1) m).eval (World.oracle env) u =
        (some false, v') ∧ v.Beside v') :
    ∃ v', (processServed ps epoch primacy now i n).eval (World.oracle env) w = (some false, v') ∧
      v.Beside v' := by
  have here : ps.derControls[i]? = some derc := by
    rw [← Nat.add_zero i, ← List.getElem?_drop, left]
    rfl
  have tail : ps.derControls.drop (i + 1) = rest := by
    rw [← List.drop_drop, left]
    rfl
  have inside : i < ps.derControls.length := (List.getElem?_eq_some_iff.mp here).1
  obtain ⟨m, rfl⟩ : ∃ m, n = m + 1 := ⟨n - 1, by omega⟩
  obtain ⟨v', finished, beside⟩ := later m (by omega) tail
  refine ⟨v', ?_, beside⟩
  rw [processServed, eval_getWorld]
  dsimp only
  rw [own, here]
  dsimp only
  rw [Co.bind_eq, Co.eval_bind, ran]
  exact finished

/-- The loop over the served controls stores the new events. -/
theorem eval_served {ps : DerProgramState} {batch : List EventRecord} {epoch i n : Nat}
    (rounds : Rounds env ps.href primacy now (ps.derControls.drop i) w batch)
    (own : w.objectOf epoch ps = ps) (working : w.closed = false)
    (enough : ps.derControls.length ≤ i + n) :
    ∃ v, (processServed ps epoch primacy now i n).eval (World.oracle env) w = (some false, v) ∧
      (batch.foldl (fun w record => World.exec (.upsert record) w) w).Beside v := by
  generalize left : ps.derControls.drop i = controls at rounds
  induction rounds generalizing i n with
  | done w =>
      have past : ps.derControls[i]? = none :=
        List.getElem?_eq_none_iff.mpr (List.drop_eq_nil_iff.mp left)
      refine ⟨w, ?_, .refl w⟩
      cases n with
      | zero => rfl
      | succ n =>
          rw [processServed, eval_getWorld]
          dsimp only
          rw [own, past]
          rfl
  | @known w derc rest batch known later ih =>
      obtain ⟨u, ran, beside⟩ := eval_round_known env ps.href primacy now known
      have next : w.round env ps.href primacy now derc = u := congrArg Prod.snd ran
      rw [next] at ih
      refine eval_processServed own left enough ran fun m enough' tail => ?_
      obtain ⟨v, finished, stored⟩ := ih ((beside.objectOf _ _).trans own)
        (beside.closed.trans working) enough' tail
      exact ⟨v, finished, (beside.stored batch).trans stored⟩
  | @new w derc rest batch waits later ih =>
      obtain ⟨u, ran, beside⟩ := eval_round_new env working waits
      have next : w.round env ps.href primacy now derc = u := congrArg Prod.snd ran
      rw [next] at ih
      refine eval_processServed own left enough ran fun m enough' tail => ?_
      obtain ⟨v, finished, stored⟩ := ih ((beside.objectOf _ _).trans own)
        (beside.closed.trans working) enough' tail
      exact ⟨v, finished, (beside.stored batch).trans stored⟩

theorem unserved_eq_nil {ps : DerProgramState} : w.unserved p ps = [] ↔
    ∀ mrid r, w.store.get? mrid = some r → (w.record r).state.isTerminal = false →
      (w.record r).programHref = p → (w.record r).mrid ∈ ps.derControls.map (·.mrid) := by
  unfold Core.unserved
  rw [List.filter_eq_nil_iff]
  simp only [EventStore.mem_allActiveStates, decide_eq_true_eq, not_and, not_not]
  constructor
  · exact fun all mrid r stored running => all r ⟨⟨mrid, stored⟩, running⟩
  · rintro all r ⟨⟨mrid, stored⟩, running⟩
    exact all mrid r stored running

/-- A served event is not missing. -/
theorem unserved_upsert {ps : DerProgramState} {record : EventRecord} (keyed : w.store.Keyed)
    (served : record.mrid ∈ ps.derControls.map (·.mrid)) (none_ : w.unserved p ps = []) :
    (World.exec (.upsert record) w).unserved p ps = [] := by
  rw [unserved_eq_nil] at none_ ⊢
  intro mrid r stored
  change (w.store.upsert record).get? mrid = some r at stored
  change ((w.store.upsert record).object r).state.isTerminal = false →
    ((w.store.upsert record).object r).programHref = p →
      ((w.store.upsert record).object r).mrid ∈ ps.derControls.map (·.mrid)
  simp only [EventStore.get?, EventStore.upsert, Dict.get?_set] at stored ⊢
  split at stored
  · cases stored
    rw [Function.update_self]
    exact fun _ _ => served
  · rw [Function.update_of_ne (Nat.ne_of_lt (keyed mrid r stored).1)]
    exact none_ mrid r stored

/-- After the rounds no event is missing from the served list, if none was before. -/
theorem unserved_stored {ps : DerProgramState} {batch : List EventRecord} (keyed : w.store.Keyed)
    (served : ∀ record ∈ batch, record.mrid ∈ ps.derControls.map (·.mrid))
    (none_ : w.unserved p ps = []) :
    (batch.foldl (fun w record => World.exec (.upsert record) w) w).unserved p ps = [] := by
  induction batch generalizing w with
  | nil => exact none_
  | cons record rest ih =>
      exact ih (EventStore.keyed_upsert keyed record)
        (fun later listed => served later (List.mem_cons_of_mem _ listed))
        (unserved_upsert keyed (served record List.mem_cons_self) none_)

/-- With no event missing, rule p) does nothing. -/
theorem eval_reconcileServed {ps : DerProgramState} {epoch : Nat} (env : Answers) (now : Int)
    (own : w.objectOf epoch ps = ps) (none_ : w.unserved ps.href ps = []) :
    (reconcileServed ps epoch now).eval (World.oracle env) w = (some false, w) := by
  rw [reconcileServed, eval_getWorld]
  dsimp only
  rw [own, none_]
  split <;> rfl

end Rounds

end Py20305
