import Py20305.Events.Fallback
import Py20305.Lib.Offers

/-!
What the devices are left with by passes of polls that find no event.

Each poll that finds none sends the default of its program to the devices it is let through to
(`eval_poll_vacant`). A device is left with the default of the last program of the pass that goes
out to it (`idle_pass_defaults`): no program that came before it and no record is better.
-/

namespace Py20305

open Coroutine Co

/-! ### A poll that stores nothing -/

/-- Every dispatch succeeds; how responses fare is open. -/
def Answers.Succeed (env : Answers) : Prop := ∀ call, env.outcome call = none

/-- No event was ever stored, and the processor runs without groups. -/
structure World.Vacant (w : World) : Prop where
  closed : w.closed = false
  ungrouped : w.groupLookup = none
  made : w.store.next = 0
  events : w.store.events = Dict.empty

/-- `w'` differs from `w` in offsets, responses and task numbers only. -/
def World.Aside (w w' : World) : Prop :=
  ∃ offsets draws responses posted current nextPid,
    w' = { w with
      offsets := offsets, draws := draws, responses := responses, posted := posted,
      current := current, nextPid := nextPid }

namespace World.Aside

theorem refl (w : World) : w.Aside w := ⟨_, _, _, _, _, _, rfl⟩

theorem trans {u v w : World} (first : u.Aside v) (second : v.Aside w) : u.Aside w := by
  obtain ⟨_, _, _, _, _, _, rfl⟩ := first
  obtain ⟨_, _, _, _, _, _, rfl⟩ := second
  exact ⟨_, _, _, _, _, _, rfl⟩

theorem vacant {w w' : World} (aside : w.Aside w') (vacant : w.Vacant) : w'.Vacant := by
  obtain ⟨_, _, _, _, _, _, rfl⟩ := aside
  exact ⟨vacant.closed, vacant.ungrouped, vacant.made, vacant.events⟩

end World.Aside

/-- What a poll that stores nothing comes to: the default of the program, sent to
the targets and recorded for them. -/
def World.withDefault (w : World) (p : Href) : World :=
  match w.defaultOf p with
  | none => w
  | some (ps, dderc) =>
      let targets := w.initialTargets ps p dderc
      { w with
        dderc := targets.foldl (fun t e => t.recordApplication e.2 p dderc.mrid ps.primacy) w.dderc
        issued := w.issued ++
          targets.map fun e => ⟨.defaultControl (.href e.1) dderc none, w.toCore⟩ }

/-- Every kind of command and of wait. -/
theorem within_any {α : Type} (m : Proc α) :
    ∃ es ws, Within m es ws True := by
  refine ⟨[.upsert, .setState, .refresh, .supersede, .outcome, .optOut, .prune, .offsets,
    .register, .unregister, .clearDefaults, .recordDefault, .boundary, .claim, .schedule,
    .cancelTimers, .spawn, .finishChild, .close, .control, .issue, .hold],
    [.stateReady, .supportedModes2, .settled, .post, .dispatch, .gather, .join], ?_⟩
  refine Only.mono (Only.anything m) (fun c _ => ?_) (fun r _ => ?_) id
  · cases c.effect <;> simp
  · cases r.kind <;> simp

section Poll

variable {env : Answers}

/-- An event that was stored was stored for good. -/
theorem keeps_made {α : Type} (m : Proc α) : Keeps env (fun w => 0 < w.store.next) m := by
  obtain ⟨es, ws, within⟩ := within_any m
  refine Keeps.of_store (fun w w' same made => by rwa [same]) (fun c w _ made => ?_) within
  cases c with
  | upsert => exact Nat.succ_pos _
  | cancelTimers | close | schedule => exact made
  | spawn r devices =>
      have kept : ∀ (ds : List Href) (v : Core),
          (ds.foldl (fun v d => v.spawnChild r d) v).store = v.store := by
        intro ds
        induction ds with
        | nil => exact fun v => rfl
        | cons d rest ih => exact fun v => ih (v.spawnChild r d)
      change 0 < (devices.foldl (fun v d => v.spawnChild r d) w.toCore).store.next
      rwa [kept]
  | _ => exact made

/-- Storing an event is remembered. -/
theorem made_storeNew (p : Href) (derc : Dercontrol) (record : EventRecord) (w : World) :
    0 < ((storeNew p derc record).eval (World.oracle env) w).2.store.next := by
  change 0 < (Co.eval (World.oracle env) (if _ then _ else _) w).2.store.next
  split
  · rw [Co.bind_eq, perform_bind, Co.eval]
    exact keeps_made _ _ (Nat.succ_pos _)
  · rw [Co.bind_eq, perform_bind, Co.eval]
    exact keeps_made _ _ (Nat.succ_pos _)

theorem aside_answered {u w : World} (aside : u.Aside w) (r : Request) (a : r.Answer) :
    u.Aside (w.answered r a) := by
  obtain ⟨responses, posted, same⟩ := answered_spec w r a
  rw [same]
  exact aside.trans ⟨_, _, _, _, _, _, rfl⟩

/-- Responses are all that posting a response changes. -/
theorem aside_postResponse {u : World} (derc : Dercontrol) (code : ResponseCode) (p : Href) :
    Keeps env u.Aside (postResponse derc code p []) := by
  refine Keeps.of_within (postResponse_within derc code p []) (by decide) (fun c w listed aside => ?_)
    (fun r a w aside => aside_answered aside r a)
  cases c with
  | claim key => exact aside.trans ⟨_, _, _, _, _, _, rfl⟩
  | issue calls => exact absurd listed (issue_effect_notMem calls (by decide) (by decide))
  | _ => simp [Cmd.effect] at listed

/-- What a round comes to: it goes on with nothing but offsets and responses changed, or an
event is stored. -/
def Passes (u : World) (done : Option Bool × World) : Prop :=
  done.1 = some false ∧ u.Aside done.2 ∨ 0 < done.2.store.next

theorem passes_newControl {u w : World} (vacant : u.Vacant) (aside : u.Aside w) (p : Href)
    (primacy : Nat) (now : Int) (derc : Dercontrol) (start duration : Int) :
    Passes u ((newControl p primacy now derc start duration).eval (World.oracle env) w) := by
  unfold newControl
  rw [Co.bind_eq, getWorld_bind, Co.eval]
  split
  · exact Or.inl ⟨rfl, aside⟩
  · split
    · split
      · exact Or.inl ⟨rfl, aside⟩
      · obtain ⟨_, returns⟩ :=
          Co.eval_returns (World.oracle env) (postResponse_within derc .expired p []) w
        have posted : u.Aside ((postResponse derc .expired p []).eval (World.oracle env) w).2 :=
          aside_postResponse derc .expired p w aside
        rw [Co.bind_eq, Co.eval_bind]
        generalize (postResponse derc .expired p []).eval (World.oracle env) w = done at *
        obtain ⟨outcome, w'⟩ := done
        obtain rfl : outcome = some () := returns
        exact Or.inl ⟨congrArg some (posted.vacant vacant).closed, posted⟩
    · exact Or.inr (made_storeNew p derc _ w)

theorem passes_processControl {u w : World} (vacant : u.Vacant) (aside : u.Aside w) (p : Href)
    (primacy : Nat) (now : Int) (derc : Dercontrol) :
    Passes u ((processControl p primacy now derc).eval (World.oracle env) w) := by
  have drawn : ∃ x w', (effectiveOffsets p derc).eval (World.oracle env) w = (some x, w') ∧
      u.Aside w' := by
    rw [eval_effectiveOffsets]
    dsimp only
    split
    · exact ⟨_, _, rfl, aside.trans ⟨_, _, _, _, _, _, rfl⟩⟩
    · exact ⟨_, _, rfl, aside.trans ⟨_, _, _, _, _, _, rfl⟩⟩
  obtain ⟨x, w', ran, aside'⟩ := drawn
  have absent : w'.store.get? derc.mrid = none := by
    rw [EventStore.get?, (aside'.vacant vacant).events]
    exact Dict.get?_empty _
  unfold processControl
  rw [Co.bind_eq, Co.eval_bind, ran]
  dsimp only
  rw [Co.bind_eq, getWorld_bind, Co.eval, absent]
  exact passes_newControl vacant aside' p primacy now derc _ _

/-- The rounds over the served controls. -/
theorem passes_processServed {u : World} (vacant : u.Vacant) (ps : DerProgramState)
    (epoch primacy : Nat) (now : Int) (i rounds : Nat) {w : World} (aside : u.Aside w) :
    Passes u ((processServed ps epoch primacy now i rounds).eval (World.oracle env) w) := by
  induction rounds generalizing i w with
  | zero => exact Or.inl ⟨rfl, aside⟩
  | succ rounds ih =>
      rw [processServed, Co.bind_eq, getWorld_bind, Co.eval]
      cases (w.objectOf epoch ps).derControls[i]? with
      | none => exact Or.inl ⟨rfl, aside⟩
      | some derc =>
          have round : Passes u ((processControl ps.href primacy now derc).eval (World.oracle env) w) :=
            passes_processControl vacant aside ps.href primacy now derc
          dsimp only
          rw [Co.bind_eq, Co.eval_bind]
          generalize (processControl ps.href primacy now derc).eval (World.oracle env) w = done at *
          obtain ⟨outcome, w'⟩ := done
          rcases round with ⟨goes, aside'⟩ | made
          · obtain rfl : outcome = some false := goes
            exact ih (i + 1) aside'
          · cases outcome with
            | none => exact Or.inr made
            | some stop => exact Or.inr (keeps_made _ w' made)

theorem World.Vacant.activeEvents {w : World} (vacant : w.Vacant) : w.activeEvents = [] := by
  rw [Core.activeEvents, EventStore.byState, vacant.events]
  rfl

theorem World.Vacant.cancelledPending {w : World} (vacant : w.Vacant) (p : Href) :
    w.cancelledPending p = false := by
  rw [Core.cancelledPending, EventStore.byState, vacant.events]
  rfl

theorem eval_recordInitial_all {results : Nat → Option DispatchFailure} {p : Href} (mrid : Mrid)
    {ps : DerProgramState} (epoch from_ : Nat) (targets : List (Href × Lfdi)) {w : World}
    (all : ∀ i, results i = none) (present : w.discovered.derPrograms.get? p = some ps)
    (own : ps.href = p) :
    (recordInitial results p mrid ps epoch 1 from_ targets).eval (World.oracle env) w =
      (some (), { w with
        dderc := targets.foldl (fun t e => t.recordApplication e.2 p mrid ps.primacy) w.dderc }) := by
  induction targets generalizing w from_ with
  | nil => rfl
  | cons target rest ih =>
      have landed : allLanded results from_ 1 = true := by simp [allLanded, all]
      change Co.eval _ ((onlyIf _ _).bind _) w = _
      rw [onlyIf, if_pos landed, objectOf_present (own ▸ present)]
      exact ih (w := World.exec (.recordDderc target.2 p mrid ps.primacy) w) _ present

theorem defaultCalls_vacant {w : World} (vacant : w.Vacant) (d p : Href)
    (dderc : DefaultDercontrol) :
    w.defaultCalls none d p dderc = [.defaultControl (.href d) dderc none] := by
  simp [Core.defaultCalls, Core.reachOf, Core.groupLocalLfdis, vacant.ungrouped]

theorem eval_initial_vacant (succeed : env.Succeed) {w : World} (vacant : w.Vacant)
    (named : w.discovered.Named) (p : Href) :
    (applyInitialDderc p).eval (World.oracle env) w = (some (), w.withDefault p) := by
  unfold World.withDefault Core.defaultOf
  rw [applyInitialDderc, Co.bind_eq, getWorld_bind, Co.eval]
  dsimp only
  cases found : w.discovered.derPrograms.get? p with
  | none => rfl
  | some ps =>
      dsimp only
      cases given : ps.defaultDercontrol with
      | none => rfl
      | some dderc =>
          have uncovered : w.modesRunningIn
              (w.reachOf p ((w.initialTargets ps p dderc).map Prod.fst)) w.activeEvents = ∅ := by
            rw [vacant.activeEvents]
            rfl
          dsimp only [Option.map_some]
          rw [vacant.cancelledPending, if_neg Bool.false_ne_true]
          by_cases nobody : w.initialTargets ps p dderc = []
          · rw [if_pos nobody]
            simp [nobody, Co.eval]
          · rw [if_neg nobody, uncovered, Finset.inter_empty, Finset.sdiff_empty,
              if_neg fun h => h.1 h.2, if_pos rfl]
            let calls := (w.initialTargets ps p dderc).flatMap fun t =>
              w.defaultCalls none t.1 p dderc
            obtain ⟨results, outcomes, gathered⟩ := eval_gatherCalls env w calls
            have all : ∀ i, results i = none := by
              intro i
              rw [outcomes]
              cases calls[i]? with
              | none => rfl
              | some call => exact succeed call
            have perTarget : ((w.groupLocalLfdis p).map List.length).getD 1 = 1 := by
              rw [Core.groupLocalLfdis, vacant.ungrouped]
              rfl
            have sent : calls = (w.initialTargets ps p dderc).map fun t =>
                .defaultControl (.href t.1) dderc none := by
              rw [List.map_eq_flatMap]
              exact List.flatMap_congr fun t _ => defaultCalls_vacant vacant t.1 p dderc
            rw [Co.bind_eq, Co.eval_bind, gathered, perTarget]
            dsimp only
            rw [eval_recordInitial_all (w := World.exec (.issue calls) w) dderc.mrid _ _ _ all found
              (named p ps found), sent]
            simp [World.exec, Core.exec]

theorem World.Vacant.pruneStore {w : World} (vacant : w.Vacant) (now : Int) :
    w.store.pruneExpired now = w.store := by
  have events := vacant.events
  unfold EventStore.pruneExpired
  generalize w.store = store at *
  obtain ⟨object, next, events'⟩ := store
  subst events
  rfl

/-- The end of a poll that found nothing to store. -/
theorem eval_finishPoll_vacant (succeed : env.Succeed) {w : World} (vacant : w.Vacant)
    (named : w.discovered.Named) (p : Href) (now : Int) :
    ∃ v, w.Aside v ∧
      (finishPoll p now).eval (World.oracle env) w = (some (), v.withDefault p) := by
  have quiet : runSupersession.eval (World.oracle env) w = (some (), w) := by
    have few : w.store.allActiveStates.length < 2 := by
      rw [EventStore.allActiveStates, vacant.events]
      exact Nat.zero_lt_two
    rw [runSupersession, Co.bind_eq, getWorld_bind, Co.eval]
    dsimp only
    rw [if_pos few]
    rfl
  let v : World := { w with
    offsets := w.offsets.prune now
    responses := w.responses.prune now }
  have aside : w.Aside v := ⟨_, _, _, _, _, _, rfl⟩
  refine ⟨v, aside, ?_⟩
  rw [finishPoll, Co.bind_eq, Co.eval_bind, quiet]
  dsimp only
  rw [unlessClosed, Co.bind_eq, getWorld_bind, Co.eval, vacant.closed,
    if_neg Bool.false_ne_true]
  have pruned : World.exec (.pruneResponses now) (World.exec (.pruneOffsets now)
      (World.exec (.pruneStore now) w)) = v := by
    simp only [World.exec, Core.exec, vacant.pruneStore]
    rfl
  change (applyInitialDderc p).eval (World.oracle env) (World.exec (.pruneResponses now)
    (World.exec (.pruneOffsets now) (World.exec (.pruneStore now) w))) = _
  rw [pruned]
  exact eval_initial_vacant succeed (aside.vacant vacant) named p

/-- A poll by itself, starting with nothing stored. -/
theorem eval_poll_vacant (succeed : env.Succeed) {w : World} (vacant : w.Vacant)
    (named : w.discovered.Named) (p : Href) (room : Nat) :
    0 < ((processControls p room).eval (World.oracle env) w).2.store.next ∨
      ∃ v, w.Aside v ∧
        (processControls p room).eval (World.oracle env) w = (some (), v.withDefault p) := by
  rw [processControls, unlessClosed, Co.bind_eq, getWorld_bind, Co.eval, vacant.closed,
    if_neg Bool.false_ne_true, Co.bind_eq, getWorld_bind, Co.eval]
  cases found : w.discovered.derPrograms.get? p with
  | none =>
      refine Or.inr ⟨w, World.Aside.refl w, ?_⟩
      simp [World.withDefault, Core.defaultOf, found, Co.eval]
  | some ps =>
      dsimp only
      have served : Passes w ((processServed ps (w.epoch p) ps.primacy (w.now p) 0
          (ps.derControls.length + room)).eval (World.oracle env) w) :=
        passes_processServed vacant ps (w.epoch p) ps.primacy (w.now p) 0
          (ps.derControls.length + room) (World.Aside.refl w)
      rw [Co.bind_eq, Co.eval_bind]
      generalize (processServed ps (w.epoch p) ps.primacy (w.now p) 0
        (ps.derControls.length + room)).eval (World.oracle env) w = done at *
      obtain ⟨outcome, w'⟩ := done
      rcases served with ⟨goes, aside⟩ | made
      · obtain rfl : outcome = some false := goes
        have vacant' := aside.vacant vacant
        have named' : w'.discovered.Named := by
          obtain ⟨_, _, _, _, _, _, rfl⟩ := aside
          exact named
        have nothing : (reconcileServed ps (w.epoch p) (w.now p)).eval (World.oracle env) w' =
            (some false, w') := by
          have unserved : w'.unserved ps.href (w'.objectOf (w.epoch p) ps) = [] := by
            rw [Core.unserved, EventStore.allActiveStates, vacant'.events]
            rfl
          rw [reconcileServed, Co.bind_eq, getWorld_bind, Co.eval]
          dsimp only
          rw [unserved]
          split
          · rfl
          · rfl
        obtain ⟨v, aside', finished⟩ := eval_finishPoll_vacant succeed vacant' named' p (w.now p)
        refine Or.inr ⟨v, aside.trans aside', ?_⟩
        dsimp only
        rw [if_neg Bool.false_ne_true, Co.bind_eq, Co.eval_bind, nothing]
        exact finished
      · cases outcome with
        | none => exact Or.inl made
        | some stop => exact Or.inl (keeps_made _ w' made)

end Poll

/-! ### What a default finds on record -/

section Record

open Offers

/-- The applied defaults of a device, by program: primacy and mRID. -/
def Core.ledger (w : Core) (lfdi : Lfdi) : Ledger Href Nat Mrid :=
  fun p => (w.dderc.applied.get? (lfdi, p)).map fun entry => (entry.primacy, entry.mrid)

/-- What a program offers the devices of an LFDI. -/
def Core.offer (w : Core) (lfdi : Lfdi) (p : Href) : Option (Offer Href Nat Mrid) :=
  if ∃ d ∈ w.devicesOf p, w.deviceLfdi d = some lfdi then
    (w.defaultOf p).map fun (ps, dderc) => ⟨p, ps.primacy, dderc.mrid⟩
  else none

theorem shouldApplyInitial_iff (w : Core) (lfdi : Lfdi) (p : Href) (mrid : Mrid) (primacy : Nat) :
    w.dderc.shouldApplyInitial lfdi p mrid primacy = true ↔
      (w.ledger lfdi).Admits ⟨p, primacy, mrid⟩ := by
  have better : (w.dderc.applied.entries.any fun e =>
        decide (e.1.1 = lfdi ∧ e.1.2 ≠ p ∧ e.2.primacy < primacy)) = true ↔
      ¬ ∀ k e, k ≠ p → w.ledger lfdi k = some e → primacy ≤ e.1 := by
    rw [List.any_eq_true]
    constructor
    · rintro ⟨⟨⟨l, k⟩, entry⟩, listed, met⟩ none_better
      obtain ⟨rfl, other, less⟩ := of_decide_eq_true met
      have found := (Dict.mem_entries_iff _ _ _).mp listed
      have recorded : w.ledger l k = some (entry.primacy, entry.mrid) := by
        rw [Core.ledger, found, Option.map_some]
      exact absurd less (not_lt.mpr (none_better k _ other recorded))
    · intro some_better
      push Not at some_better
      obtain ⟨k, e, other, recorded, less⟩ := some_better
      obtain ⟨entry, found, rfl⟩ := Option.map_eq_some_iff.mp recorded
      exact ⟨((lfdi, k), entry), (Dict.mem_entries_iff _ _ _).mpr found, by simpa [other] using less⟩
  unfold DdercTracker.shouldApplyInitial
  split
  · rename_i outranked
    have worse := better.mp outranked
    simp only [Bool.false_eq_true, false_iff]
    exact fun admitted => worse admitted.others
  · rename_i not_outranked
    have others := not_not.mp (mt better.mpr not_outranked)
    have own : ∀ e, w.ledger lfdi p = some e ↔
        ∃ entry, w.dderc.applied.get? (lfdi, p) = some entry ∧ (entry.primacy, entry.mrid) = e :=
      fun e => Option.map_eq_some_iff
    cases found : w.dderc.applied.get? (lfdi, p) with
    | none =>
        simp only [true_iff]
        exact ⟨others, fun e here => by simp [own, found] at here⟩
    | some entry =>
        dsimp only
        constructor
        · intro allowed
          refine ⟨others, fun e here => ?_⟩
          obtain ⟨_, same, rfl⟩ := (own e).mp here
          rw [found, Option.some.injEq] at same
          subst same
          simpa using allowed
        · intro admitted
          have := admitted.own _ ((own _).mpr ⟨entry, found, rfl⟩)
          simpa using this

theorem mem_initialTargets_vacant {w : World} (vacant : w.Vacant) {ps : DerProgramState}
    {p : Href} {dderc : DefaultDercontrol} {d : Href} {lfdi : Lfdi} :
    (d, lfdi) ∈ w.initialTargets ps p dderc ↔ d ∈ w.devicesOf p ∧ w.deviceLfdi d = some lfdi ∧
      (w.ledger lfdi).Admits ⟨p, ps.primacy, dderc.mrid⟩ := by
  rw [Core.initialTargets, List.mem_filterMap]
  simp only [vacant.activeEvents, List.any_nil, Bool.false_eq_true, if_false, mem_uniqueDevices]
  constructor
  · rintro ⟨e, listed, chosen⟩
    cases known : w.deviceLfdi e with
    | none => simp [known] at chosen
    | some l =>
        simp only [known] at chosen
        split at chosen
        · rename_i allowed
          simp only [Option.some.injEq, Prod.mk.injEq] at chosen
          obtain ⟨rfl, rfl⟩ := chosen
          exact ⟨listed, known, (shouldApplyInitial_iff _ _ _ _ _).mp allowed⟩
        · cases chosen
  · rintro ⟨listed, known, admitted⟩
    refine ⟨d, listed, ?_⟩
    simp only [known, (shouldApplyInitial_iff _ _ _ _ _).mpr admitted, if_true]

theorem get?_recorded (targets : List (Href × Lfdi)) (t : DdercTracker) (p : Href) (mrid : Mrid)
    (primacy : Nat) (lfdi : Lfdi) (q : Href) :
    (targets.foldl (fun t e => t.recordApplication e.2 p mrid primacy) t).applied.get? (lfdi, q) =
      if q = p ∧ lfdi ∈ targets.map Prod.snd then some ⟨mrid, primacy⟩
      else t.applied.get? (lfdi, q) := by
  induction targets generalizing t with
  | nil => simp
  | cons target rest ih =>
      rw [List.foldl_cons, ih, DdercTracker.recordApplication, Dict.get?_set]
      by_cases own : q = p <;> by_cases here : lfdi = target.2 <;>
        by_cases later : lfdi ∈ rest.map Prod.snd <;> simp [own, here, later]

theorem withDefault_none {w : World} {p : Href} (given : w.defaultOf p = none) :
    w.withDefault p = w := by
  rw [World.withDefault, given]

theorem withDefault_some {w : World} {p : Href} {ps : DerProgramState} {dderc : DefaultDercontrol}
    (given : w.defaultOf p = some (ps, dderc)) :
    w.withDefault p = { w with
      dderc := (w.initialTargets ps p dderc).foldl
        (fun t e => t.recordApplication e.2 p dderc.mrid ps.primacy) w.dderc
      issued := w.issued ++ (w.initialTargets ps p dderc).map fun e =>
        ⟨.defaultControl (.href e.1) dderc none, w.toCore⟩ } := by
  rw [World.withDefault, given]

/-- A poll enters the offer of its program in the ledgers. -/
theorem ledger_withDefault {w : World} (vacant : w.Vacant) (p : Href) (lfdi : Lfdi) :
    (w.withDefault p).ledger lfdi = (w.offer lfdi p).elim (w.ledger lfdi) (w.ledger lfdi).take := by
  cases given : w.defaultOf p with
  | none =>
      rw [withDefault_none given, Core.offer, given, Option.map_none, ite_self]
      rfl
  | some served =>
      obtain ⟨ps, dderc⟩ := served
      have targeted : lfdi ∈ (w.initialTargets ps p dderc).map Prod.snd ↔
          (∃ d ∈ w.devicesOf p, w.deviceLfdi d = some lfdi) ∧
            (w.ledger lfdi).Admits ⟨p, ps.primacy, dderc.mrid⟩ := by
        rw [List.mem_map]
        constructor
        · rintro ⟨⟨d, l⟩, member, rfl⟩
          obtain ⟨listed, known, admitted⟩ := (mem_initialTargets_vacant vacant).mp member
          exact ⟨⟨d, listed, known⟩, admitted⟩
        · rintro ⟨⟨d, listed, known⟩, admitted⟩
          exact ⟨(d, lfdi), (mem_initialTargets_vacant vacant).mpr ⟨listed, known, admitted⟩, rfl⟩
      have after : ∀ q, (w.withDefault p).ledger lfdi q =
          if q = p ∧ lfdi ∈ (w.initialTargets ps p dderc).map Prod.snd
          then some (ps.primacy, dderc.mrid) else w.ledger lfdi q := by
        intro q
        rw [withDefault_some given, Core.ledger]
        dsimp only
        rw [get?_recorded]
        split
        · rfl
        · rfl
      funext q
      rw [after, Core.offer, given]
      by_cases covered : ∃ d ∈ w.devicesOf p, w.deviceLfdi d = some lfdi
      · rw [if_pos covered, Option.map_some, Option.elim_some]
        dsimp only
        by_cases admitted : (w.ledger lfdi).Admits ⟨p, ps.primacy, dderc.mrid⟩
        · rw [Ledger.take_of_admits admitted, Function.update_apply]
          simp only [targeted.mpr ⟨covered, admitted⟩, and_true]
        · rw [Ledger.take_of_not_admits admitted, if_neg fun h => admitted (targeted.mp h.2).2]
      · rw [if_neg covered, if_neg fun h => covered (targeted.mp h.2).1]
        rfl

end Record

/-! ### The default on a device -/

/-- A default that was sent to device `d`. -/
def Issued.defaultTo (d : Href) (e : Issued) : Option DefaultDercontrol :=
  match e.call with
  | .defaultControl (.href e) dderc _ => if e = d then some dderc else none
  | _ => none

/-- The default most recently dispatched to device `d`. -/
def World.lastDefault (w : World) (d : Href) : Option DefaultDercontrol :=
  (w.issued.filterMap (Issued.defaultTo d)).getLast?

/-- Whether the default of program `p` goes out to device `d`, in a pass over `order`: it is
let through by what is on record before the pass, and none of the programs of that LFDI that
come before it is better. -/
def Core.goesOut (w : Core) (order : List Href) (d p : Href) : Option DefaultDercontrol :=
  match w.deviceLfdi d, w.defaultOf p with
  | some lfdi, some (ps, dderc) =>
      if d ∈ w.devicesOf p ∧ w.dderc.shouldApplyInitial lfdi p dderc.mrid ps.primacy = true ∧
          ∀ q ∈ order.takeWhile (· ≠ p), ∀ o ∈ w.offer lfdi q, ps.primacy ≤ o.rank
        then some dderc else none
  | _, _ => none

/-- One device after a poll of `p`. -/
theorem lastDefault_withDefault {w : World} (vacant : w.Vacant) (p d : Href) (rest : List Href) :
    (w.withDefault p).lastDefault d = (w.goesOut (p :: rest) d p).or (w.lastDefault d) := by
  have first : (p :: rest).takeWhile (· ≠ p) = [] := by simp
  cases given : w.defaultOf p with
  | none =>
      rw [withDefault_none given, Core.goesOut, given]
      cases w.deviceLfdi d with
      | none => rfl
      | some lfdi => rfl
  | some served =>
      obtain ⟨ps, dderc⟩ := served
      let sent := ((w.initialTargets ps p dderc).map fun e =>
        (⟨.defaultControl (.href e.1) dderc none, w.toCore⟩ : Issued)).filterMap (Issued.defaultTo d)
      have after : (w.withDefault p).lastDefault d = sent.getLast?.or (w.lastDefault d) := by
        rw [withDefault_some given, World.lastDefault, List.filterMap_append,
          List.getLast?_append]
        rfl
      have mem_sent : ∀ x, x ∈ sent ↔ x = dderc ∧ ∃ lfdi, (d, lfdi) ∈ w.initialTargets ps p dderc := by
        intro x
        simp only [sent, List.mem_filterMap, List.mem_map]
        constructor
        · rintro ⟨_, ⟨⟨e, lfdi⟩, listed, rfl⟩, here⟩
          simp only [Issued.defaultTo, Option.ite_none_right_eq_some, Option.some.injEq] at here
          obtain ⟨rfl, rfl⟩ := here
          exact ⟨rfl, lfdi, listed⟩
        · rintro ⟨rfl, lfdi, listed⟩
          exact ⟨_, ⟨_, listed, rfl⟩, by simp [Issued.defaultTo]⟩
      have chosen : ∀ lfdi, (d, lfdi) ∈ w.initialTargets ps p dderc ↔ w.deviceLfdi d = some lfdi ∧
          d ∈ w.devicesOf p ∧
          w.dderc.shouldApplyInitial lfdi p dderc.mrid ps.primacy = true := by
        intro lfdi
        rw [mem_initialTargets_vacant vacant, shouldApplyInitial_iff]
        exact and_left_comm
      rw [after, Core.goesOut, given, first]
      congr 1
      cases known : w.deviceLfdi d with
      | none =>
          rw [List.getLast?_eq_none_iff, List.eq_nil_iff_forall_not_mem]
          rintro x member
          obtain ⟨_, lfdi, target⟩ := (mem_sent x).mp member
          rw [chosen, known] at target
          cases target.1
      | some lfdi =>
          dsimp only
          by_cases out : d ∈ w.devicesOf p ∧
              w.dderc.shouldApplyInitial lfdi p dderc.mrid ps.primacy = true
          · rw [if_pos ⟨out.1, out.2, by simp⟩]
            have listed := (mem_sent dderc).mpr ⟨rfl, lfdi, (chosen lfdi).mpr ⟨known, out⟩⟩
            rw [List.getLast?_eq_some_getLast (List.ne_nil_of_mem listed), Option.some.injEq]
            exact ((mem_sent _).mp (List.getLast_mem _)).1
          · rw [if_neg fun h => out ⟨h.1, h.2.1⟩, List.getLast?_eq_none_iff,
              List.eq_nil_iff_forall_not_mem]
            rintro x member
            obtain ⟨_, l, target⟩ := (mem_sent x).mp member
            obtain ⟨known', out'⟩ := (chosen l).mp target
            rw [known, Option.some.injEq] at known'
            exact out (known' ▸ out')

/-! ### A pass of polls -/

/-- What a poll leaves as it is. -/
theorem withDefault_frame (w : World) (p : Href) :
    (w.withDefault p).discovered = w.discovered ∧ (w.withDefault p).closed = w.closed ∧
      (w.withDefault p).groupLookup = w.groupLookup ∧ (w.withDefault p).store = w.store := by
  cases given : w.defaultOf p with
  | none =>
      rw [withDefault_none given]
      exact ⟨rfl, rfl, rfl, rfl⟩
  | some served =>
      rw [withDefault_some given]
      exact ⟨rfl, rfl, rfl, rfl⟩

theorem World.Vacant.withDefault {w : World} (vacant : w.Vacant) (p : Href) :
    (w.withDefault p).Vacant := by
  obtain ⟨-, closed, groups, store⟩ := withDefault_frame w p
  exact ⟨closed.trans vacant.closed, groups.trans vacant.ungrouped, by rw [store, vacant.made],
    by rw [store, vacant.events]⟩

/-- What a program offers does not depend on what is on record. -/
theorem offer_withDefault (w : World) (p q : Href) (lfdi : Lfdi) :
    (w.withDefault p).offer lfdi q = w.offer lfdi q := by
  unfold Core.offer Core.defaultOf Core.devicesOf Core.deviceLfdi
  rw [(withDefault_frame w p).1]

/-- After a poll of `p` another program's default is let through if it was, and is no worse. -/
theorem shouldApplyInitial_withDefault {w : World} (vacant : w.Vacant) {p q : Href}
    (other : q ≠ p) (lfdi : Lfdi) (mrid : Mrid) (primacy : Nat) :
    (w.withDefault p).dderc.shouldApplyInitial lfdi q mrid primacy = true ↔
      w.dderc.shouldApplyInitial lfdi q mrid primacy = true ∧
        ∀ o ∈ w.offer lfdi p, primacy ≤ o.rank := by
  rw [shouldApplyInitial_iff, shouldApplyInitial_iff, ledger_withDefault vacant]
  cases offered : w.offer lfdi p with
  | none => simp
  | some o =>
      have key : o.key = p := by
        unfold Core.offer at offered
        split at offered
        · obtain ⟨_, -, rfl⟩ := Option.map_eq_some_iff.mp offered
          rfl
        · cases offered
      rw [Option.elim_some, Offers.Ledger.admits_take (key ▸ other)]
      simp

/-- After a poll of `p` the default of another program goes out as it would have in a pass that
begins with `p`. -/
theorem goesOut_withDefault {w : World} (vacant : w.Vacant) {p q : Href} (other : q ≠ p) (d : Href)
    (rest : List Href) : (w.withDefault p).goesOut rest d q = w.goesOut (p :: rest) d q := by
  have known : (w.withDefault p).deviceLfdi d = w.deviceLfdi d := by
    unfold Core.deviceLfdi
    rw [(withDefault_frame w p).1]
  have given : (w.withDefault p).defaultOf q = w.defaultOf q := by
    unfold Core.defaultOf
    rw [(withDefault_frame w p).1]
  have reached : (w.withDefault p).devicesOf q = w.devicesOf q := by
    unfold Core.devicesOf
    rw [(withDefault_frame w p).1]
  have first : (p :: rest).takeWhile (· ≠ q) = p :: rest.takeWhile (· ≠ q) := by
    rw [List.takeWhile_cons, if_pos (by simpa using Ne.symm other)]
  unfold Core.goesOut
  rw [known, given, first]
  cases w.deviceLfdi d with
  | none => rfl
  | some lfdi =>
      cases w.defaultOf q with
      | none => rfl
      | some served =>
          obtain ⟨ps, dderc⟩ := served
          dsimp only
          simp only [reached, shouldApplyInitial_withDefault vacant other, offer_withDefault,
            List.forall_mem_cons, and_assoc]

/-- One poll of each program, in turn and by itself. -/
def World.pass (env : Answers) (room : Nat) (order : List Href) (w : World) : World :=
  order.foldl (fun w p => ((processControls p room).eval (World.oracle env) w).2) w

theorem made_pass {env : Answers} {w : World} (room : Nat) (order : List Href)
    (made : 0 < w.store.next) : 0 < (w.pass env room order).store.next := by
  induction order generalizing w with
  | nil => exact made
  | cons p rest ih => exact ih (keeps_made _ w made)

/-- A pass over the programs that stores no event, where none ever was: a device is left with the
default of the last program of the pass whose default goes out to it, or with the one it had. -/
theorem idle_pass_defaults {env : Answers} (succeed : env.Succeed) {w : World} (vacant : w.Vacant)
    (named : w.discovered.Named) (room : Nat) {order : List Href} (distinct : order.Nodup)
    (idle : (w.pass env room order).store.next = 0) (d : Href) :
    (w.pass env room order).lastDefault d =
      (order.reverse.findSome? (w.goesOut order d)).or (w.lastDefault d) := by
  induction order generalizing w with
  | nil => rfl
  | cons p rest ih =>
      obtain ⟨new, distinct⟩ := List.nodup_cons.mp distinct
      have unmade : ¬ 0 < ((processControls p room).eval (World.oracle env) w).2.store.next := by
        intro made
        exact absurd idle (Nat.ne_of_gt (made_pass room rest made))
      obtain ⟨v, aside, ran⟩ := (eval_poll_vacant succeed vacant named p room).resolve_left unmade
      have vacant' := aside.vacant vacant
      have polled : w.pass env room (p :: rest) = (v.withDefault p).pass env room rest := by
        rw [World.pass, List.foldl_cons, ran]
        rfl
      rw [polled] at idle ⊢
      have named' : (v.withDefault p).discovered.Named := by
        rw [(withDefault_frame v p).1]
        obtain ⟨_, _, _, _, _, _, rfl⟩ := aside
        exact named
      have same : v.lastDefault d = w.lastDefault d ∧ ∀ q, v.goesOut (p :: rest) d q =
          w.goesOut (p :: rest) d q := by
        obtain ⟨_, _, _, _, _, _, rfl⟩ := aside
        exact ⟨rfl, fun _ => rfl⟩
      have later : rest.reverse.findSome? ((v.withDefault p).goesOut rest d) =
          rest.reverse.findSome? (w.goesOut (p :: rest) d) := by
        have each : ∀ q ∈ rest.reverse,
            (v.withDefault p).goesOut rest d q = w.goesOut (p :: rest) d q := by
          intro q listed
          have other : q ≠ p := fun here => new (here ▸ List.mem_reverse.mp listed)
          rw [goesOut_withDefault vacant' other, same.2]
        rw [← List.head?_filterMap, ← List.head?_filterMap, List.filterMap_congr each]
      rw [ih (vacant'.withDefault p) named' distinct idle, later,
        lastDefault_withDefault vacant' p d rest, same.1, same.2, List.reverse_cons,
        List.findSome?_append, Option.or_assoc, List.findSome?_cons]
      cases w.goesOut (p :: rest) d p <;> rfl

/-- A program with a default for one mode, and no control. -/
def idleProgram (href : Href) (primacy : Nat) (mrid : Mrid) : DerProgramState :=
  { plainProgram href primacy [] with defaultDercontrol := some ⟨mrid, ⟨{.opModFixedW}⟩⟩ }

/-- Three programs on one device, the first of which is on another one too. -/
def idleCore : Core :=
  plainCore [idleProgram "/derp/1" 2 11, idleProgram "/derp/2" 1 12, idleProgram "/derp/3" 5 13]
    [("/derp/1", "/edev/1"), ("/derp/2", "/edev/1"), ("/derp/3", "/edev/1"), ("/derp/1", "/edev/2")]

def idleOrder : List Href := ["/derp/1", "/derp/2", "/derp/3"]

theorem idleCore_named : idleCore.discovered.Named := by
  have all : ∀ e ∈ idleCore.discovered.derPrograms.entries, e.2.href = e.1 := by decide
  exact fun p ps found => all (p, ps) ((Dict.mem_entries_iff _ _ _).mpr found)

/-- The first device is left with the default of the second program, which is better than the
others, and the other device with that of the first. -/
theorem idleCore_defaults :
    (World.pass {} 0 idleOrder { toCore := idleCore }).lastDefault "/edev/1" =
        some ⟨12, ⟨{.opModFixedW}⟩⟩ ∧
      (World.pass {} 0 idleOrder { toCore := idleCore }).lastDefault "/edev/2" =
        some ⟨11, ⟨{.opModFixedW}⟩⟩ := by
  have vacant : ({ toCore := idleCore } : World).Vacant := ⟨rfl, rfl, rfl, rfl⟩
  have idle : (World.pass {} 0 idleOrder { toCore := idleCore }).store.next = 0 := by
    decide +kernel
  have left := @idle_pass_defaults {} (fun _ => rfl) _ vacant idleCore_named 0 _ (by decide) idle
  constructor
  · rw [left]
    decide +kernel
  · rw [left]
    decide +kernel

end Py20305
