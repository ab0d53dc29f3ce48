import Py20305.Events.Polls

/-!
Who supersedes: chains of events, in one pass and over several polls.

A pass compares the events that have not ended, and applies the results one by
one. Applying one can end the winner of a later one, which is applied all the
same. `live_winners`: in a pass that runs alone every winner is still live when
its devices are marked, unless a winner that earlier results cover has a loser
they do not cover (`Spares`); and where one event supersedes a second and the
second a third, the third fares the same for every order of discovery, unless
the first reaches every device of the second.
-/

namespace Py20305

open Coroutine Co

/-! ### What one result does to the store -/

namespace EventRecord

variable (record : EventRecord)

/-- A loser's record once its devices and modes are marked. -/
def marked (result : SupersessionResult) : EventRecord :=
  let marked := { record with
    supersededDevices := record.supersededDevices ∪ result.affectedDevices }
  if result.affectedModes ≠ ∅ then
    marked.withModesTaken result.affectedDevices result.affectedModes
  else marked

/-- The event is superseded on every device of its program. -/
def Full (map : ProgramDevices) : Prop :=
  map.getD record.programHref [] ≠ [] ∧
    ∀ d ∈ map.getD record.programHref [], d ∈ record.supersededDevices

instance (map : ProgramDevices) : Decidable (record.Full map) := by
  unfold Full
  infer_instance

/-- A loser's record once the result is applied to it. -/
def taken (map : ProgramDevices) (result : SupersessionResult) : EventRecord :=
  if (record.marked result).Full map then { record.marked result with state := .superseded }
  else record.marked result

@[simp] theorem marked_mrid (result : SupersessionResult) :
    (record.marked result).mrid = record.mrid := by
  unfold marked
  split <;> rfl

@[simp] theorem marked_programHref (result : SupersessionResult) :
    (record.marked result).programHref = record.programHref := by
  unfold marked
  split <;> rfl

@[simp] theorem marked_state (result : SupersessionResult) :
    (record.marked result).state = record.state := by
  unfold marked
  split <;> rfl

@[simp] theorem marked_devices (result : SupersessionResult) :
    (record.marked result).supersededDevices =
      record.supersededDevices ∪ result.affectedDevices := by
  unfold marked
  split <;> rfl

@[simp] theorem taken_mrid (map : ProgramDevices) (result : SupersessionResult) :
    (record.taken map result).mrid = record.mrid := by
  unfold taken
  split <;> simp

@[simp] theorem taken_programHref (map : ProgramDevices) (result : SupersessionResult) :
    (record.taken map result).programHref = record.programHref := by
  unfold taken
  split <;> simp

end EventRecord

namespace EventStore

variable (store : EventStore)

/-- The event is stored and SCHEDULED or ACTIVE. -/
def Live (mrid : Mrid) : Prop :=
  ∃ r, store.get? mrid = some r ∧ (store.object r).state.isTerminal = false

/-- The result waits for the superseding event to start. -/
def Defers (result : SupersessionResult) : Prop :=
  ∃ r by_, store.get? result.supersededMrid = some r ∧ store.get? result.supersedingMrid = some by_ ∧
    (store.object by_).state = .scheduled ∧ (store.object r).state = .active

/-- The pass marks devices of the superseded event for the result. -/
def Marks (result : SupersessionResult) : Prop :=
  store.Live result.supersededMrid ∧ (∃ by_, store.get? result.supersedingMrid = some by_) ∧
    ¬ store.Defers result

end EventStore

section Supersede

variable {env : Answers} {map : ProgramDevices} {result : SupersessionResult} {w : World}

theorem update_update (store : EventStore) (r : Ref) (f g : EventRecord → EventRecord) :
    (store.update r f).update r g = store.update r fun record => g (f record) := by
  simp [EventStore.update]

theorem update_congr (store : EventStore) {r : Ref} {f g : EventRecord → EventRecord}
    (same : f (store.object r) = g (store.object r)) : store.update r f = store.update r g := by
  simp [EventStore.update, same]

/-- A result that marks nothing does nothing. -/
theorem supersede_idle (env : Answers) (map : ProgramDevices) (idle : ¬ w.store.Marks result) :
    (supersede map result).eval (World.oracle env) w = (some (), w) := by
  unfold supersede
  rw [eval_getWorld]
  split
  · rename_i r by_ found found'
    by_cases ended : (w.record r).state.isTerminal = true
    · simp only [if_pos ended]
      rfl
    · by_cases waits : (w.record by_).state = .scheduled ∧ (w.record r).state = .active
      · simp only [if_neg ended, if_pos waits]
        rfl
      · refine absurd ⟨⟨r, found, Bool.eq_false_iff.mpr ended⟩, ⟨by_, found'⟩, ?_⟩ idle
        rintro ⟨r', by', same, same', deferred⟩
        cases found.symm.trans same
        cases found'.symm.trans same'
        exact waits deferred
  · rfl

/-- The end of a result, on a record that is stored. -/
theorem eval_supersedeIfFully (env : Answers) (map : ProgramDevices) {r : Ref}
    (stored : w.store.get? (w.record r).mrid = some r) :
    ∃ v : World, (supersedeIfFully map r).eval (World.oracle env) w = (some (), v) ∧
      (v.store = if (w.record r).Full map then
        w.store.update r fun record => { record with state := .superseded } else w.store) ∧
      v.discovered = w.discovered ∧ v.closed = w.closed := by
  change ∃ v : World, Co.eval (World.oracle env) (onlyIf ((w.record r).Full map) _) w = _ ∧ _
  unfold onlyIf
  dsimp only
  split
  · have rest : Within (perform (.cancelTimers (w.record r).mrid) >>= fun _ =>
        if (w.record r).state = .active then applyDdercFallback r false else pure ())
        (.cancelTimers :: fallbackEffects) [.gather] := by
      refine Within.bind (Within.perform (by simp [Cmd.effect])) fun _ => ?_
      split
      · exact (applyDdercFallback_within r false).mono (by decide) (by decide)
      · exact Within.pure ()
    obtain ⟨u, v, ran, beside⟩ := eval_beside env rest (by decide) (by decide)
      (World.exec (.setState r .superseded) w)
    refine ⟨v, ?_, beside.store, beside.discovered, beside.closed⟩
    rw [Co.bind_eq, Co.eval_bind, eval_transition _ _ stored]
    exact ran
  · exact ⟨w, rfl, rfl, rfl, rfl⟩

/-- A result that marks changes the superseded record, and no other. -/
theorem supersede_marks (env : Answers) (map : ProgramDevices) (keyed : w.store.Keyed)
    (marks : w.store.Marks result) {r : Ref}
    (found : w.store.get? result.supersededMrid = some r) :
    ∃ v : World, (supersede map result).eval (World.oracle env) w = (some (), v) ∧
      v.store = w.store.update r (EventRecord.taken · map result) ∧
      v.discovered = w.discovered ∧ v.closed = w.closed := by
  obtain ⟨⟨r', found', running⟩, ⟨by_, winner⟩, prompt⟩ := marks
  cases found.symm.trans found'
  have going : ¬ (w.record r).state.isTerminal = true := Bool.eq_false_iff.mp running
  have now_ : ¬ ((w.record by_).state = .scheduled ∧ (w.record r).state = .active) :=
    fun deferred => prompt ⟨r, by_, found, winner, deferred⟩
  unfold supersede
  rw [eval_getWorld, found, winner]
  dsimp only
  rw [if_neg going, if_neg now_]
  -- The responses are posted in between, with the record in hand.
  obtain ⟨_, w₁, posted, beside⟩ := eval_beside env (postResponseForDevices_within (w.record r).derc
    .superseded (result.affectedDevices.filter fun d =>
      d ∉ (w.record r).supersededDevices ∧ d ∉ (w.record r).rejectedDevices))
    (by decide) (by decide)
    (World.exec (.hold [r]) (World.exec (.addSuperseded r result.affectedDevices) w))
  have added : w₁.store = w.store.update r fun record =>
      { record with supersededDevices := record.supersededDevices ∪ result.affectedDevices } :=
    beside.store
  obtain ⟨w₂, moded, same₂, known₂, still₂⟩ : ∃ w₂ : World,
      (onlyIf (result.affectedModes ≠ ∅) (perform (.addSupersededModes r result.affectedDevices
        result.affectedModes))).eval (World.oracle env) (World.exec (.hold []) w₁) = (some (), w₂) ∧
      w₂.store = w.store.update r (EventRecord.marked · result) ∧
      w₂.discovered = w.discovered ∧ w₂.closed = w.closed := by
    unfold onlyIf EventRecord.marked
    by_cases none_ : result.affectedModes = ∅
    · simp only [none_, ne_eq, not_true_eq_false, if_false]
      exact ⟨_, rfl, added, beside.discovered, beside.closed⟩
    · simp only [none_, ne_eq, not_false_eq_true, if_true]
      refine ⟨_, rfl, ?_, beside.discovered, beside.closed⟩
      change w₁.store.update r _ = _
      rw [added, update_update]
  have record : w₂.record r = (w.record r).marked result := by
    unfold Core.record
    rw [same₂, EventStore.object_update_self]
  have stored : w₂.store.get? (w₂.record r).mrid = some r := by
    have own : (w.record r).mrid = result.supersededMrid := (keyed _ _ found).2
    rw [record, EventRecord.marked_mrid, own, same₂]
    exact found
  obtain ⟨v, ended, same, known, still⟩ := eval_supersedeIfFully env map stored
  refine ⟨v, ?_, ?_, known.trans known₂, still.trans still₂⟩
  · change Co.eval (World.oracle env) (Co.bind (postResponseForDevices _ _ _) _) _ = _
    rw [Co.eval_bind, posted]
    change Co.eval (World.oracle env) (Co.bind (onlyIf _ _) _) (World.exec (.hold []) w₁) = _
    rw [Co.eval_bind, moded]
    exact ended
  · rw [same, record, same₂, update_update]
    by_cases full : ((w.record r).marked result).Full map
    · rw [if_pos full]
      exact update_congr _ (if_pos full).symm
    · rw [if_neg full]
      exact update_congr _ (if_neg full).symm

end Supersede

/-! ### A pass -/

/-- The results of the pass, in the order they are applied in. -/
def Core.passResults (w : Core) : List SupersessionResult :=
  if w.store.allActiveStates.length < 2 then []
  else computeSupersession (w.store.allActiveStates.map w.record)
    w.discovered.deviceMapping.programToDevices

theorem eval_runSupersession (o : Oracle ProcSig) (w : World) :
    runSupersession.eval o w =
      (forEach w.passResults (supersede w.discovered.deviceMapping.programToDevices)).eval o w := by
  change Co.eval o (if _ then _ else _) w = _
  unfold Core.passResults
  split <;> rfl

/-- Whenever devices are marked, the superseding event is live. -/
def LiveWinners (env : Answers) (map : ProgramDevices) : List SupersessionResult → World → Prop
  | [], _ => True
  | result :: rest, w => (w.store.Marks result → w.store.Live result.supersedingMrid) ∧
      LiveWinners env map rest ((supersede map result).eval (World.oracle env) w).2

namespace EventStore

variable (store : EventStore) (map : ProgramDevices) (before : List SupersessionResult)

/-- The results against the event that do not wait. -/
def Against (mrid : Mrid) (result : SupersessionResult) : Prop :=
  result ∈ before ∧ result.supersededMrid = mrid ∧ ¬ store.Defers result

/-- The results, as the snapshot has them, supersede the event on every device of
its program. -/
def Covered (mrid : Mrid) : Prop :=
  ∃ r, store.get? mrid = some r ∧ (∃ result, store.Against before mrid result) ∧
    map.getD (store.object r).programHref [] ≠ [] ∧
    ∀ d ∈ map.getD (store.object r).programHref [], d ∈ (store.object r).supersededDevices ∨
      ∃ result, store.Against before mrid result ∧ d ∈ result.affectedDevices

/-- No winner that earlier results cover has a loser they do not cover. -/
def Spares (results : List SupersessionResult) : Prop :=
  ∀ before result after, results = before ++ result :: after →
    store.Covered map before result.supersedingMrid → store.Covered map before result.supersededMrid

/-- Where a pass stands that has applied the results of `before` with live
winners only: the events they cover have ended, the others are marked. -/
structure Passed (now : EventStore) : Prop where
  events : now.events = store.events
  next : now.next = store.next
  mrid : ∀ r, (now.object r).mrid = (store.object r).mrid
  program : ∀ r, (now.object r).programHref = (store.object r).programHref
  ended : ∀ mrid r, store.get? mrid = some r → store.Covered map before mrid →
    (now.object r).state = .superseded
  going : ∀ mrid r, store.get? mrid = some r → ¬ store.Covered map before mrid →
    (now.object r).state = (store.object r).state ∧
      ∀ d, d ∈ (now.object r).supersededDevices ↔ d ∈ (store.object r).supersededDevices ∨
        ∃ result, store.Against before mrid result ∧ d ∈ result.affectedDevices

end EventStore

section Pass

variable {env : Answers} {map : ProgramDevices} {before : List SupersessionResult}
  {result : SupersessionResult} {store now : EventStore}

theorem EventStore.Passed.start (store : EventStore) (map : ProgramDevices) :
    store.Passed map [] store := by
  refine ⟨rfl, rfl, fun _ => rfl, fun _ => rfl, ?_, fun _ _ _ _ => ⟨rfl, fun d => ?_⟩⟩
  · rintro mrid r - ⟨_, -, ⟨result, ⟨listed, -⟩⟩, -⟩
    exact absurd listed List.not_mem_nil
  · simp [EventStore.Against]

namespace EventStore.Passed

theorem get? (passed : store.Passed map before now) (mrid : Mrid) :
    now.get? mrid = store.get? mrid := by
  unfold EventStore.get?
  rw [passed.events]

theorem keyed (passed : store.Passed map before now) (keyed : store.Keyed) : now.Keyed := by
  intro mrid r found
  rw [passed.get?] at found
  rw [passed.next, passed.mrid]
  exact keyed mrid r found

/-- Of the events that were live, those not covered are. -/
theorem live_iff (passed : store.Passed map before now) {mrid : Mrid} (live : store.Live mrid) :
    now.Live mrid ↔ ¬ store.Covered map before mrid := by
  obtain ⟨r, found, running⟩ := live
  by_cases covered : store.Covered map before mrid
  · simp only [covered, not_true_eq_false, iff_false]
    rintro ⟨r', found', running'⟩
    rw [passed.get?, found] at found'
    cases found'
    rw [passed.ended mrid r found covered] at running'
    cases running'
  · simp only [covered, not_false_eq_true, iff_true]
    refine ⟨r, (passed.get? mrid).trans found, ?_⟩
    rw [(passed.going mrid r found covered).1]
    exact running

/-- A result whose parties are not covered waits as it did in the snapshot. -/
theorem defers_iff (passed : store.Passed map before now)
    (winner : ¬ store.Covered map before result.supersedingMrid)
    (loser : ¬ store.Covered map before result.supersededMrid) :
    now.Defers result ↔ store.Defers result := by
  unfold EventStore.Defers
  simp only [passed.get?]
  constructor
  · rintro ⟨r, by_, found, found', scheduled, active⟩
    rw [(passed.going _ _ found' winner).1] at scheduled
    rw [(passed.going _ _ found loser).1] at active
    exact ⟨r, by_, found, found', scheduled, active⟩
  · rintro ⟨r, by_, found, found', scheduled, active⟩
    refine ⟨r, by_, found, found', ?_, ?_⟩
    · rwa [(passed.going _ _ found' winner).1]
    · rwa [(passed.going _ _ found loser).1]

/-- A covered winner has ended, so nothing waits for it. -/
theorem not_defers (passed : store.Passed map before now)
    (winner : store.Covered map before result.supersedingMrid) : ¬ now.Defers result := by
  rintro ⟨r, by_, -, found, scheduled, -⟩
  rw [passed.get?] at found
  rw [passed.ended _ _ found winner] at scheduled
  cases scheduled

/-- Devices are marked for an ended winner exactly where the winner is covered
and the loser is not. -/
theorem marks_live_iff (passed : store.Passed map before now)
    (loser : store.Live result.supersededMrid) (winner : store.Live result.supersedingMrid) :
    (now.Marks result → now.Live result.supersedingMrid) ↔
      (store.Covered map before result.supersedingMrid →
        store.Covered map before result.supersededMrid) := by
  rw [passed.live_iff winner]
  constructor
  · intro rightly covered
    by_contra spared
    obtain ⟨by_, found, -⟩ := winner
    refine rightly ⟨(passed.live_iff loser).mpr spared, ⟨by_, (passed.get? _).trans found⟩, ?_⟩
      covered
    exact passed.not_defers covered
  · intro spares marks covered
    exact (passed.live_iff loser).mp marks.1 (spares covered)

end EventStore.Passed

theorem against_snoc {mrid : Mrid} {other : SupersessionResult} :
    store.Against (before ++ [result]) mrid other ↔ store.Against before mrid other ∨
      (other = result ∧ result.supersededMrid = mrid ∧ ¬ store.Defers result) := by
  simp only [EventStore.Against, List.mem_append, List.mem_singleton]
  constructor
  · rintro ⟨old | rfl, against⟩
    · exact .inl ⟨old, against⟩
    · exact .inr ⟨rfl, against⟩
  · rintro (⟨old, against⟩ | ⟨rfl, against⟩)
    · exact ⟨.inl old, against⟩
    · exact ⟨.inr rfl, against⟩

/-- A result that is not against the event, or that waits. -/
theorem against_other {mrid : Mrid} (other : result.supersededMrid = mrid → store.Defers result)
    (one : SupersessionResult) :
    store.Against (before ++ [result]) mrid one ↔ store.Against before mrid one := by
  rw [against_snoc, or_iff_left]
  rintro ⟨-, same, prompt⟩
  exact prompt (other same)

theorem covered_other {mrid : Mrid} (other : result.supersededMrid = mrid → store.Defers result) :
    store.Covered map (before ++ [result]) mrid ↔ store.Covered map before mrid := by
  simp only [EventStore.Covered, against_other other]

theorem covered_snoc {mrid : Mrid} (covered : store.Covered map before mrid) :
    store.Covered map (before ++ [result]) mrid := by
  obtain ⟨r, found, ⟨one, against⟩, some_, all⟩ := covered
  refine ⟨r, found, ⟨one, against_snoc.mpr (.inl against)⟩, some_, fun d member => ?_⟩
  refine (all d member).imp_right ?_
  rintro ⟨one, against, affected⟩
  exact ⟨one, against_snoc.mpr (.inl against), affected⟩

/-- A result that marks nothing, its winner live or not. -/
theorem EventStore.Passed.idle (passed : store.Passed map before now)
    (loser : store.Live result.supersededMrid) (winner : store.Live result.supersedingMrid)
    (idle : ¬ now.Marks result) : store.Passed map (before ++ [result]) now := by
  by_cases covered : store.Covered map before result.supersededMrid
  · refine ⟨passed.events, passed.next, passed.mrid, passed.program, fun mrid r found ends => ?_,
      fun mrid r found spared => ?_⟩
    · by_cases here : result.supersededMrid = mrid
      · exact passed.ended mrid r found (here ▸ covered)
      · exact passed.ended mrid r found ((covered_other fun same => absurd same here).mp ends)
    · by_cases here : result.supersededMrid = mrid
      · exact absurd (covered_snoc (here ▸ covered)) spared
      · have other : result.supersededMrid = mrid → store.Defers result :=
          fun same => absurd same here
        rw [covered_other other] at spared
        simpa only [against_other other] using passed.going mrid r found spared
  · -- The loser is live: the result waits.
    have waits : now.Defers result := by
      by_contra prompt
      obtain ⟨by_, found, -⟩ := winner
      exact idle ⟨(passed.live_iff loser).mpr covered, ⟨by_, (passed.get? _).trans found⟩, prompt⟩
    have deferred : store.Defers result := by
      refine (passed.defers_iff (fun ended => ?_) covered).mp waits
      exact passed.not_defers ended waits
    refine ⟨passed.events, passed.next, passed.mrid, passed.program, fun mrid r found ends => ?_,
      fun mrid r found spared => ?_⟩
    · exact passed.ended mrid r found ((covered_other fun _ => deferred).mp ends)
    · rw [covered_other fun _ => deferred] at spared
      simpa only [against_other fun _ => deferred] using passed.going mrid r found spared

/-- A result that marks, its winner being live. -/
theorem EventStore.Passed.marked (passed : store.Passed map before now) (keyed : store.Keyed)
    (loser : store.Live result.supersededMrid)
    (spares : store.Covered map before result.supersedingMrid →
      store.Covered map before result.supersededMrid)
    (marks : now.Marks result) {r : Ref} (found : store.get? result.supersededMrid = some r) :
    store.Passed map (before ++ [result]) (now.update r (EventRecord.taken · map result)) := by
  have open_ : ¬ store.Covered map before result.supersededMrid := (passed.live_iff loser).mp marks.1
  have prompt : ¬ store.Defers result :=
    fun deferred => marks.2.2 ((passed.defers_iff (fun ended => open_ (spares ended)) open_).mpr deferred)
  obtain ⟨state, devices⟩ := passed.going _ r found open_
  have against : ∀ one, store.Against (before ++ [result]) result.supersededMrid one ↔
      store.Against before result.supersededMrid one ∨ one = result := by
    intro one
    rw [against_snoc]
    simp [prompt]
  -- What the record now has is what the results so far take.
  have marked_ : ∀ d, d ∈ ((now.object r).marked result).supersededDevices ↔
      d ∈ (store.object r).supersededDevices ∨
        ∃ one, store.Against (before ++ [result]) result.supersededMrid one ∧
          d ∈ one.affectedDevices := by
    intro d
    rw [EventRecord.marked_devices, List.mem_union_iff, devices, or_assoc]
    simp only [against, or_and_right, exists_or, exists_eq_left]
  have full_iff : ((now.object r).marked result).Full map ↔
      store.Covered map (before ++ [result]) result.supersededMrid := by
    unfold EventRecord.Full EventStore.Covered
    simp only [EventRecord.marked_programHref, passed.program, marked_]
    constructor
    · rintro ⟨some_, all⟩
      exact ⟨r, found, ⟨result, (against result).mpr (.inr rfl)⟩, some_, all⟩
    · rintro ⟨r', found', -, some_, all⟩
      cases found.symm.trans found'
      exact ⟨some_, all⟩
  have elsewhere : ∀ mrid q, store.get? mrid = some q → mrid ≠ result.supersededMrid → q ≠ r := by
    rintro mrid q stored other rfl
    exact other ((keyed _ _ stored).2.symm.trans (keyed _ _ found).2)
  refine ⟨passed.events, passed.next, fun q => ?_, fun q => ?_, fun mrid q stored ends => ?_,
    fun mrid q stored spared => ?_⟩
  · by_cases here : q = r
    · rw [here, EventStore.object_update_self, EventRecord.taken_mrid, passed.mrid]
    · rw [EventStore.object_update_ne _ _ here, passed.mrid]
  · by_cases here : q = r
    · rw [here, EventStore.object_update_self, EventRecord.taken_programHref, passed.program]
    · rw [EventStore.object_update_ne _ _ here, passed.program]
  · by_cases here : mrid = result.supersededMrid
    · subst here
      cases found.symm.trans stored
      rw [EventStore.object_update_self, EventRecord.taken, if_pos (full_iff.mpr ends)]
    · rw [EventStore.object_update_ne _ _ (elsewhere mrid q stored here)]
      exact passed.ended mrid q stored ((covered_other fun same => absurd same.symm here).mp ends)
  · by_cases here : mrid = result.supersededMrid
    · subst here
      cases found.symm.trans stored
      rw [EventStore.object_update_self, EventRecord.taken,
        if_neg fun full => spared (full_iff.mp full), EventRecord.marked_state]
      exact ⟨state, marked_⟩
    · have other : result.supersededMrid = mrid → store.Defers result :=
        fun same => absurd same.symm here
      rw [EventStore.object_update_ne _ _ (elsewhere mrid q stored here)]
      rw [covered_other other] at spared
      simpa only [against_other other] using passed.going mrid q stored spared

/-- A pass from where it stands. -/
theorem liveWinners_iff (keyed : store.Keyed) (results : List SupersessionResult) {w : World}
    (listed : ∀ result ∈ results,
      store.Live result.supersededMrid ∧ store.Live result.supersedingMrid)
    (passed : store.Passed map before w.store) :
    LiveWinners env map results w ↔ ∀ mid result after, results = mid ++ result :: after →
      store.Covered map (before ++ mid) result.supersedingMrid →
      store.Covered map (before ++ mid) result.supersededMrid := by
  induction results generalizing before w with
  | nil => simp [LiveWinners]
  | cons result rest ih =>
      obtain ⟨loser, winner⟩ := listed result List.mem_cons_self
      have here := passed.marks_live_iff loser winner
      -- With a live winner the pass stands as before, one result later.
      have next : (store.Covered map before result.supersedingMrid →
          store.Covered map before result.supersededMrid) →
          store.Passed map (before ++ [result])
            ((supersede map result).eval (World.oracle env) w).2.store := by
        intro spares
        by_cases marks : w.store.Marks result
        · obtain ⟨r, found, running⟩ := loser
          obtain ⟨v, ran, same, -⟩ := supersede_marks env map (passed.keyed keyed) marks
            ((passed.get? _).trans found)
          rw [ran, same]
          exact passed.marked keyed ⟨r, found, running⟩ spares marks found
        · rw [supersede_idle env map marks]
          exact passed.idle loser winner marks
      have tail := fun spares => ih (fun one member => listed one (List.mem_cons_of_mem _ member))
        (next spares)
      constructor
      · rintro ⟨first, later⟩ mid one after split covered
        cases mid with
        | nil =>
            obtain ⟨rfl, rfl⟩ := List.cons.inj split
            rw [List.append_nil] at covered ⊢
            exact here.mp first covered
        | cons _ mid =>
            obtain ⟨rfl, rest_⟩ := List.cons.inj split
            have := (tail (here.mp first)).mp later mid one after rest_
            rw [List.append_assoc] at this
            exact this covered
      · intro spares
        have first := spares [] result rest rfl
        rw [List.append_nil] at first
        refine ⟨here.mpr first, (tail first).mpr fun mid one after split covered => ?_⟩
        rw [List.append_assoc] at covered ⊢
        exact spares (result :: mid) one after (congrArg _ split) covered

/-- The events of a pass have different mRIDs. -/
theorem nodup_passed (keyed : store.Keyed) :
    ((store.allActiveStates.map store.object).map (·.mrid)).Nodup := by
  rw [List.map_map]
  refine (nodup_allActiveStates keyed).map_on fun r member q member' same => ?_
  obtain ⟨⟨mrid, stored⟩, -⟩ := EventStore.mem_allActiveStates.mp member
  obtain ⟨⟨mrid', stored'⟩, -⟩ := EventStore.mem_allActiveStates.mp member'
  have own := (keyed _ _ stored).2
  have own' := (keyed _ _ stored').2
  change (store.object r).mrid = (store.object q).mrid at same
  rw [← own, same, own'] at stored
  exact Option.some.inj (stored.symm.trans stored')

/-- A result is about the two events compared. -/
theorem compareEvents_parties {a b : EventRecord} (found : compareEvents map a b = some result) :
    (result.supersededMrid = b.mrid ∧ result.supersedingMrid = a.mrid) ∨
      (result.supersededMrid = a.mrid ∧ result.supersedingMrid = b.mrid) := by
  simp only [compareEvents] at found
  split_ifs at found
  cases found
  unfold winnerLoser
  split_ifs
  · exact .inl ⟨rfl, rfl⟩
  · exact .inr ⟨rfl, rfl⟩
  · exact .inl ⟨rfl, rfl⟩
  · exact .inr ⟨rfl, rfl⟩

/-- Both parties of every result are live when the pass starts. -/
theorem passResults_live {w : World} (keyed : w.store.Keyed) (listed : result ∈ w.passResults) :
    w.store.Live result.supersededMrid ∧ w.store.Live result.supersedingMrid := by
  have live : ∀ (i : Nat) (a : EventRecord),
      (w.store.allActiveStates.map w.record)[i]? = some a → w.store.Live a.mrid := by
    intro i a at_
    obtain ⟨r, member, rfl⟩ := List.mem_map.mp (List.mem_of_getElem? at_)
    obtain ⟨⟨mrid, stored⟩, running⟩ := EventStore.mem_allActiveStates.mp member
    refine ⟨r, ?_, running⟩
    have own : (w.record r).mrid = mrid := (keyed _ _ stored).2
    rw [own]
    exact stored
  unfold Core.passResults at listed
  split at listed
  · cases listed
  · obtain ⟨i, j, a, b, -, first, second, found⟩ :=
      (mem_computeSupersession (nodup_passed keyed)).mp listed
    rcases compareEvents_parties found with ⟨loser, winner⟩ | ⟨loser, winner⟩ <;> rw [loser, winner]
    · exact ⟨live j b second, live i a first⟩
    · exact ⟨live i a first, live j b second⟩

end Pass

/-! ### Chains -/

/-- `a` wins over `b`, whichever of them comes first. -/
def EventRecord.Outranks (a b : EventRecord) : Prop :=
  a.primacy < b.primacy ∨ (a.primacy = b.primacy ∧ tieBreakTime b < tieBreakTime a)

/-- `a` supersedes `b`: they meet in time, in modes and on devices. -/
structure Supersedes (map : ProgramDevices) (a b : EventRecord) : Prop where
  rank : a.Outranks b
  time : timeOverlaps a b = true
  modes : comparedModeKeys a.derc.base = comparedModeKeys b.derc.base ∨
    comparedModeKeys a.derc.base ∩ comparedModeKeys b.derc.base ≠ ∅
  devices : ∃ d ∈ map.getD a.programHref [], d ∈ map.getD b.programHref []

/-- The devices on which it does. -/
def sharedDevices (map : ProgramDevices) (a b : EventRecord) : List Href :=
  (map.getD a.programHref []).filter (· ∈ map.getD b.programHref [])

/-- The result of their comparison. -/
def resultOf (map : ProgramDevices) (a b : EventRecord) : SupersessionResult where
  supersededMrid := b.mrid
  supersedingMrid := a.mrid
  affectedDevices := sharedDevices map a b
  supersededProgramHref := b.programHref
  supersedingProgramHref := a.programHref
  affectedModes := comparedModeKeys a.derc.base ∩ comparedModeKeys b.derc.base

/-- The record of `x`, with marks of supersession. -/
def Evolves (x y : EventRecord) : Prop :=
  ∃ devices modes st, y =
    { x with supersededDevices := devices, supersededModes := modes, state := st }

theorem Evolves.mrid {x y : EventRecord} (evolves : Evolves x y) : y.mrid = x.mrid := by
  obtain ⟨_, _, _, rfl⟩ := evolves
  rfl

section Compare

variable {map : ProgramDevices} {a b c : EventRecord}

theorem timeOverlaps_comm (a b : EventRecord) : timeOverlaps a b = timeOverlaps b a :=
  Bool.and_comm _ _

/-- Marks do not enter a comparison. -/
theorem compareEvents_evolves {a' b' : EventRecord} (first : Evolves a a') (second : Evolves b b') :
    compareEvents map a' b' = compareEvents map a b := by
  have wins : (winnerLoser a' b' = (a', b') ∧ winnerLoser a b = (a, b)) ∨
      (winnerLoser a' b' = (b', a') ∧ winnerLoser a b = (b, a)) := by
    obtain ⟨_, _, _, rfl⟩ := first
    obtain ⟨_, _, _, rfl⟩ := second
    unfold winnerLoser
    dsimp only [tieBreakTime]
    split_ifs <;> simp
  unfold compareEvents
  dsimp only
  rcases wins with ⟨left, right⟩ | ⟨left, right⟩ <;> rw [left, right]
  all_goals
    obtain ⟨_, _, _, rfl⟩ := first
    obtain ⟨_, _, _, rfl⟩ := second
    rfl

theorem winnerLoser_outranks (rank : a.Outranks b) :
    winnerLoser a b = (a, b) ∧ winnerLoser b a = (a, b) := by
  unfold winnerLoser
  rcases rank with less | ⟨same, newer⟩
  · rw [if_pos less, if_neg (not_lt_of_gt less), if_pos less]
    exact ⟨rfl, rfl⟩
  · have equal : ¬ a.primacy < b.primacy ∧ ¬ b.primacy < a.primacy := by omega
    simp only [if_neg equal.1, if_neg equal.2, if_pos newer.le, if_neg (not_le.mpr newer), and_self]

theorem sharedDevices_ne_nil (wins : Supersedes map a b) : sharedDevices map a b ≠ [] := by
  obtain ⟨d, own, other⟩ := wins.devices
  refine List.ne_nil_of_mem (a := d) (List.mem_filter.mpr ⟨own, ?_⟩)
  exact decide_eq_true other

theorem compareEvents_supersedes (wins : Supersedes map a b) :
    compareEvents map a b = some (resultOf map a b) ∧
      compareEvents map b a = some (resultOf map a b) := by
  obtain ⟨first, second⟩ := winnerLoser_outranks wins.rank
  have some_ := sharedDevices_ne_nil wins
  have meets : ¬ (comparedModeKeys a.derc.base ≠ comparedModeKeys b.derc.base ∧
      comparedModeKeys a.derc.base ∩ comparedModeKeys b.derc.base = ∅) := by
    rintro ⟨other, none_⟩
    exact wins.modes.elim other fun some_ => some_ none_
  constructor
  · unfold compareEvents
    dsimp only
    rw [wins.time, if_neg (by decide), if_neg meets, first]
    exact if_neg some_
  · unfold compareEvents
    dsimp only
    rw [timeOverlaps_comm b a, wins.time, if_neg (by decide), Finset.inter_comm,
      if_neg fun other => meets ⟨other.1.symm, other.2⟩, second]
    exact if_neg some_

end Compare

/-! ### Fates -/

/-- The state of an event and the devices it is superseded on. -/
abbrev Fate := EventState × Finset Href

/-- The fate of an event that waits to start. -/
def Fate.waiting : Fate := (.scheduled, ∅)

/-- The fate of such an event once `a` supersedes it. -/
def fateUnder (map : ProgramDevices) (a b : EventRecord) : Fate :=
  (if ∀ d ∈ map.getD b.programHref [], d ∈ map.getD a.programHref [] then .superseded
    else .scheduled, (sharedDevices map a b).toFinset)

namespace EventStore

variable (store : EventStore)

/-- The fate of a stored event. -/
def fate (mrid : Mrid) : Option Fate :=
  (store.get? mrid).map fun r =>
    ((store.object r).state, (store.object r).supersededDevices.toFinset)

/-- `x` is stored, with this fate. -/
def Fares (x : EventRecord) (fate : Fate) : Prop :=
  ∃ r, store.get? x.mrid = some r ∧ Evolves x (store.object r) ∧
    (store.object r).state = fate.1 ∧ (store.object r).supersededDevices.toFinset = fate.2

theorem Fares.fate {store : EventStore} {x : EventRecord} {fate : Fate}
    (fares : store.Fares x fate) : store.fate x.mrid = some fate := by
  obtain ⟨r, found, -, state, devices⟩ := fares
  unfold EventStore.fate
  rw [found, Option.map_some, state, devices]

end EventStore

section Fates

variable {env : Answers} {map : ProgramDevices} {a b x : EventRecord} {fate : Fate}

theorem Evolves.taken {y : EventRecord} (evolves : Evolves x y) (result : SupersessionResult) :
    Evolves x (y.taken map result) := by
  obtain ⟨devices, modes, st, rfl⟩ := evolves
  unfold EventRecord.taken EventRecord.marked EventRecord.withModesTaken
  split <;> split <;> exact ⟨_, _, _, rfl⟩

/-- The record of `b` after its result with `a`. -/
theorem fate_taken (wins : Supersedes map a b) {y : EventRecord} (evolves : Evolves b y)
    (waits : y.state = .scheduled) (devices : y.supersededDevices ⊆ sharedDevices map a b) :
    (y.taken map (resultOf map a b)).state = (fateUnder map a b).1 ∧
      (y.taken map (resultOf map a b)).supersededDevices.toFinset = (fateUnder map a b).2 := by
  have program : y.programHref = b.programHref := by
    obtain ⟨_, _, _, rfl⟩ := evolves
    rfl
  have marked_ : ∀ d, d ∈ (y.marked (resultOf map a b)).supersededDevices ↔
      d ∈ sharedDevices map a b := by
    intro d
    rw [EventRecord.marked_devices, List.mem_union_iff]
    exact ⟨fun member => member.elim (fun old => devices old) id, .inr⟩
  have some_ : map.getD b.programHref [] ≠ [] := by
    obtain ⟨d, -, own⟩ := wins.devices
    exact List.ne_nil_of_mem own
  have full_iff : (y.marked (resultOf map a b)).Full map ↔
      ∀ d ∈ map.getD b.programHref [], d ∈ map.getD a.programHref [] := by
    unfold EventRecord.Full
    simp only [marked_, EventRecord.marked_programHref, program, some_, ne_eq, not_false_eq_true,
      true_and, sharedDevices, List.mem_filter, decide_eq_true_eq]
    exact forall₂_congr fun d own => and_iff_left own
  have set : (y.marked (resultOf map a b)).supersededDevices.toFinset =
      (sharedDevices map a b).toFinset := by
    ext d
    rw [List.mem_toFinset, List.mem_toFinset, marked_]
  unfold EventRecord.taken fateUnder
  by_cases full : (y.marked (resultOf map a b)).Full map
  · rw [if_pos full, if_pos (full_iff.mp full)]
    exact ⟨rfl, set⟩
  · rw [if_neg full, if_neg fun all => full (full_iff.mpr all), EventRecord.marked_state]
    exact ⟨waits, set⟩

/-- What a result leaves alone. -/
theorem supersede_frame (env : Answers) (map : ProgramDevices) (result : SupersessionResult)
    {w : World} (keyed : w.store.Keyed) :
    ∃ v : World, (supersede map result).eval (World.oracle env) w = (some (), v) ∧
      v.store.Keyed ∧ v.store.events = w.store.events ∧ v.discovered = w.discovered ∧
      (∀ x y, Evolves x (w.record y) → Evolves x (v.record y)) ∧
      ∀ r, w.store.get? result.supersededMrid ≠ some r → v.record r = w.record r := by
  by_cases marks : w.store.Marks result
  · obtain ⟨r, found, running⟩ := marks.1
    obtain ⟨v, ran, same, known, -⟩ := supersede_marks env map keyed marks found
    have own : v.record r = (w.record r).taken map result := by
      unfold Core.record
      rw [same, EventStore.object_update_self]
    have other : ∀ q, q ≠ r → v.record q = w.record q := by
      intro q different
      unfold Core.record
      rw [same, EventStore.object_update_ne _ _ different]
    refine ⟨v, ran, fun mrid q stored => ?_, by rw [same]; rfl, known, fun x q evolves => ?_,
      fun q different => other q fun here => different (here ▸ found)⟩
    · rw [same, EventStore.get?_update] at stored
      obtain ⟨made, mrid_⟩ := keyed mrid q stored
      refine ⟨by rw [same]; exact made, ?_⟩
      change (v.record q).mrid = mrid
      by_cases here : q = r
      · rw [here] at mrid_ ⊢
        rw [own, EventRecord.taken_mrid]
        exact mrid_
      · rw [other q here]
        exact mrid_
    · by_cases here : q = r
      · rw [here] at evolves ⊢
        rw [own]
        exact evolves.taken result
      · rw [other q here]
        exact evolves
  · exact ⟨w, supersede_idle env map marks, keyed, rfl, rfl, fun _ _ evolves => evolves,
      fun _ _ => rfl⟩

/-- A result against another event. -/
theorem fares_other {w : World} {result : SupersessionResult} (keyed : w.store.Keyed)
    (other : x.mrid ≠ result.supersededMrid) (fares : w.store.Fares x fate) :
    ((supersede map result).eval (World.oracle env) w).2.store.Fares x fate := by
  obtain ⟨v, ran, -, events, -, -, same⟩ := supersede_frame env map result keyed
  obtain ⟨r, found, evolves, state, devices⟩ := fares
  have untouched : v.store.object r = w.store.object r := by
    refine same r fun loser => other ?_
    rw [← (keyed _ _ found).2, (keyed _ _ loser).2]
  rw [ran]
  refine ⟨r, ?_, ?_, ?_, ?_⟩
  · unfold EventStore.get?
    rw [events]
    exact found
  all_goals rwa [untouched]

/-- The result itself, on an event that waits or that `a` superseded before. -/
theorem fares_hit {w : World} (keyed : w.store.Keyed) (wins : Supersedes map a b)
    (winner : ∃ r, w.store.get? a.mrid = some r)
    (fares : w.store.Fares b .waiting ∨ w.store.Fares b (fateUnder map a b)) :
    ((supersede map (resultOf map a b)).eval (World.oracle env) w).2.store.Fares b
      (fateUnder map a b) := by
  have stored : ∃ r, w.store.get? b.mrid = some r ∧ Evolves b (w.store.object r) ∧
      (w.store.object r).supersededDevices ⊆ sharedDevices map a b ∧
      ((w.store.object r).state = .scheduled ∨ (w.store.object r).state = .superseded ∧
        w.store.Fares b (fateUnder map a b)) := by
    rcases fares with ⟨r, found, evolves, state, devices⟩ | ⟨r, found, evolves, state, devices⟩
    · have none_ := List.toFinset_eq_empty_iff _ |>.mp devices
      exact ⟨r, found, evolves, none_ ▸ List.nil_subset _, .inl state⟩
    · refine ⟨r, found, evolves, fun d member => ?_, ?_⟩
      · have := List.mem_toFinset.mpr member
        rw [devices] at this
        exact List.mem_toFinset.mp this
      · by_cases all : ∀ d ∈ map.getD b.programHref [], d ∈ map.getD a.programHref []
        · refine .inr ⟨?_, r, found, evolves, state, devices⟩
          rw [state, fateUnder, if_pos all]
        · left
          rw [state, fateUnder, if_neg all]
  obtain ⟨r, found, evolves, devices, waits | ⟨ended, already⟩⟩ := stored
  · have marks : w.store.Marks (resultOf map a b) := by
      refine ⟨⟨r, found, by rw [waits]; rfl⟩, winner, ?_⟩
      rintro ⟨r', _, found', -, -, active⟩
      cases found.symm.trans found'
      rw [waits] at active
      cases active
    obtain ⟨v, ran, same, -⟩ := supersede_marks env map keyed marks found
    obtain ⟨state, set⟩ := fate_taken wins evolves waits devices
    rw [ran, same]
    refine ⟨r, found, ?_, ?_, ?_⟩ <;> rw [EventStore.object_update_self]
    · exact evolves.taken _
    · exact state
    · exact set
  · have idle : ¬ w.store.Marks (resultOf map a b) := by
      rintro ⟨⟨r', found', running⟩, -⟩
      cases found.symm.trans found'
      rw [ended] at running
      cases running
    rw [supersede_idle env map idle]
    exact already

end Fates

/-! ### The passes over a chain -/

/-- `a` supersedes `b` and `b` supersedes `c`, while `a` and `c` do not meet. All
three wait to start. -/
structure Chain (map : ProgramDevices) (a b c : EventRecord) : Prop where
  first : Supersedes map a b
  second : Supersedes map b c
  apart : timeOverlaps a c = false
  distinct : a.mrid ≠ b.mrid ∧ b.mrid ≠ c.mrid ∧ a.mrid ≠ c.mrid
  new : ∀ x ∈ [a, b, c], x.state = .scheduled ∧ x.supersededDevices = []

/-- The events of a chain are told apart by their mRIDs. -/
theorem Chain.unique {map : ProgramDevices} {a b c x y : EventRecord} (chain : Chain map a b c)
    (one : x ∈ [a, b, c]) (two : y ∈ [a, b, c]) (same : x.mrid = y.mrid) : x = y := by
  obtain ⟨ab, bc, ac⟩ := chain.distinct
  simp only [List.mem_cons, List.not_mem_nil, or_false] at one two
  rcases one with rfl | rfl | rfl <;> rcases two with rfl | rfl | rfl <;>
    first | rfl | exact absurd same ‹_› | exact absurd same.symm ‹_›

/-- Nothing else is stored. -/
structure Scene (map : ProgramDevices) (a b c : EventRecord) (w : World) : Prop where
  devices : w.discovered.deviceMapping.programToDevices = map
  keyed : w.store.Keyed
  only : ∀ mrid r, w.store.get? mrid = some r → ∃ x ∈ [a, b, c], x.mrid = mrid ∧ Evolves x (w.record r)

section Passes

variable {env : Answers} {map : ProgramDevices} {a b c : EventRecord} {w : World}

/-- What a pass over the scene compares. -/
theorem Scene.listed (scene : Scene map a b c w) {y : EventRecord}
    (member : y ∈ w.store.allActiveStates.map w.record) :
    ∃ x ∈ [a, b, c], Evolves x y ∧ w.store.Live x.mrid ∧ y.mrid = x.mrid := by
  obtain ⟨r, listed, rfl⟩ := List.mem_map.mp member
  obtain ⟨⟨mrid, stored⟩, running⟩ := EventStore.mem_allActiveStates.mp listed
  obtain ⟨x, one, rfl, evolves⟩ := scene.only mrid r stored
  exact ⟨x, one, evolves, ⟨r, stored, running⟩, (scene.keyed _ _ stored).2⟩

/-- A live event of the scene is compared. -/
theorem Scene.mem (scene : Scene map a b c w) (chain : Chain map a b c) {x : EventRecord}
    (one : x ∈ [a, b, c]) (live : w.store.Live x.mrid) :
    ∃ y ∈ w.store.allActiveStates.map w.record, Evolves x y := by
  obtain ⟨r, stored, running⟩ := live
  obtain ⟨x', one', same, evolves⟩ := scene.only _ r stored
  rw [chain.unique one' one same] at evolves
  exact ⟨_, List.mem_map_of_mem (EventStore.mem_allActiveStates.mpr ⟨⟨_, stored⟩, running⟩), evolves⟩

theorem compareEvents_apart (apart : timeOverlaps a c = false) : compareEvents map a c = none := by
  simp [compareEvents, apart]

/-- Two live events, one of which supersedes the other. -/
theorem Scene.mem_passResults (scene : Scene map a b c w) (chain : Chain map a b c) {x y : EventRecord}
    (winner : x ∈ [a, b, c]) (loser : y ∈ [a, b, c]) (different : x.mrid ≠ y.mrid)
    (wins : Supersedes map x y) (live : w.store.Live x.mrid) (live' : w.store.Live y.mrid) :
    resultOf map x y ∈ w.passResults := by
  obtain ⟨x', member, evolves⟩ := scene.mem chain winner live
  obtain ⟨y', member', evolves'⟩ := scene.mem chain loser live'
  obtain ⟨i, at_⟩ := List.mem_iff_getElem?.mp member
  obtain ⟨j, at'⟩ := List.mem_iff_getElem?.mp member'
  have apart : i ≠ j := by
    rintro rfl
    cases at_.symm.trans at'
    exact different (evolves.mrid.symm.trans evolves'.mrid)
  have two : ¬ w.store.allActiveStates.length < 2 := by
    obtain ⟨inside, -⟩ := List.getElem?_eq_some_iff.mp at_
    obtain ⟨inside', -⟩ := List.getElem?_eq_some_iff.mp at'
    rw [List.length_map] at inside inside'
    omega
  unfold Core.passResults
  rw [if_neg two, scene.devices]
  refine (mem_computeSupersession (nodup_passed scene.keyed)).mpr ?_
  obtain ⟨first, second⟩ := compareEvents_supersedes wins
  rcases lt_or_gt_of_ne apart with before | after
  · exact ⟨i, j, x', y', before, at_, at', (compareEvents_evolves evolves evolves').trans first⟩
  · exact ⟨j, i, y', x', after, at', at_, (compareEvents_evolves evolves' evolves).trans second⟩

/-- The results of a pass over a chain. -/
theorem Chain.mem_passResults (chain : Chain map a b c) (scene : Scene map a b c w)
    (result : SupersessionResult) : result ∈ w.passResults ↔
      (w.store.Live a.mrid ∧ w.store.Live b.mrid ∧ result = resultOf map a b) ∨
      (w.store.Live b.mrid ∧ w.store.Live c.mrid ∧ result = resultOf map b c) := by
  constructor
  · intro listed
    unfold Core.passResults at listed
    split at listed
    · cases listed
    rw [scene.devices] at listed
    obtain ⟨i, j, x', y', before, at_, at', found⟩ :=
      (mem_computeSupersession (nodup_passed scene.keyed)).mp listed
    obtain ⟨x, one, evolves, live, own⟩ := scene.listed (List.mem_of_getElem? at_)
    obtain ⟨y, two, evolves', live', own'⟩ := scene.listed (List.mem_of_getElem? at')
    rw [compareEvents_evolves evolves evolves'] at found
    have different : x ≠ y := by
      rintro rfl
      have := index_unique (nodup_passed scene.keyed) at_ at' (own.trans own'.symm)
      omega
    obtain ⟨ab, ba⟩ := compareEvents_supersedes chain.first
    obtain ⟨bc, cb⟩ := compareEvents_supersedes chain.second
    have ac : compareEvents map a c = none := compareEvents_apart chain.apart
    have ca : compareEvents map c a = none :=
      compareEvents_apart ((timeOverlaps_comm c a).trans chain.apart)
    simp only [List.mem_cons, List.not_mem_nil, or_false] at one two
    rcases one with rfl | rfl | rfl <;> rcases two with rfl | rfl | rfl
    · exact absurd rfl different
    · exact .inl ⟨live, live', Option.some.inj (found.symm.trans ab)⟩
    · cases found.symm.trans ac
    · exact .inl ⟨live', live, Option.some.inj (found.symm.trans ba)⟩
    · exact absurd rfl different
    · exact .inr ⟨live, live', Option.some.inj (found.symm.trans bc)⟩
    · cases found.symm.trans ca
    · exact .inr ⟨live', live, Option.some.inj (found.symm.trans cb)⟩
    · exact absurd rfl different
  · rintro (⟨live, live', rfl⟩ | ⟨live, live', rfl⟩)
    · exact scene.mem_passResults chain (by simp) (by simp) chain.distinct.1 chain.first live live'
    · exact scene.mem_passResults chain (by simp) (by simp) chain.distinct.2.1 chain.second live
        live'

/-- A result changes no more than marks. -/
theorem scene_supersede {env : Answers} (result : SupersessionResult) (scene : Scene map a b c w) :
    ∃ v, (supersede map result).eval (World.oracle env) w = (some (), v) ∧ Scene map a b c v ∧
      v.store.events = w.store.events := by
  obtain ⟨v, ran, keyed, events, known, evolves, -⟩ := supersede_frame env map result scene.keyed
  refine ⟨v, ran, ⟨?_, keyed, fun mrid r stored => ?_⟩, events⟩
  · rw [known]
    exact scene.devices
  · unfold EventStore.get? at stored
    rw [events] at stored
    obtain ⟨x, one, own, evolved⟩ := scene.only mrid r stored
    exact ⟨x, one, own, evolves x r evolved⟩

/-- The state after a pass. -/
def World.passed (env : Answers) (w : World) : World := (runSupersession.eval (World.oracle env) w).2

theorem Scene.passed_eq (scene : Scene map a b c w) : w.passed env =
    ((forEach w.passResults (supersede map)).eval (World.oracle env) w).2 := by
  unfold World.passed
  rw [eval_runSupersession, scene.devices]

theorem Scene.passed (env : Answers) (scene : Scene map a b c w) :
    Scene map a b c (w.passed env) ∧ (w.passed env).store.events = w.store.events := by
  rw [scene.passed_eq]
  have kept : Keeps env (fun v => Scene map a b c v ∧ v.store.events = w.store.events)
      (forEach w.passResults (supersede map)) := by
    refine Keeps.forEach fun result _ => ?_
    rintro v ⟨there, same⟩
    obtain ⟨v', ran, there', events⟩ := scene_supersede result there
    rw [ran]
    exact ⟨there', events.trans same⟩
  exact kept w ⟨scene, rfl⟩

/-- An event no result is against. -/
theorem Scene.fares_passed {x : EventRecord} {fate : Fate} (scene : Scene map a b c w)
    (free : ∀ result ∈ w.passResults, x.mrid ≠ result.supersededMrid)
    (fares : w.store.Fares x fate) : (w.passed env).store.Fares x fate := by
  rw [scene.passed_eq]
  have kept : Keeps env (fun v => Scene map a b c v ∧ v.store.Fares x fate)
      (forEach w.passResults (supersede map)) := by
    refine Keeps.forEach fun result member => ?_
    rintro v ⟨there, fares⟩
    obtain ⟨v', ran, there', -⟩ := scene_supersede result there
    refine ⟨by rw [ran]; exact there', ?_⟩
    exact fares_other there.keyed (free result member) fares
  exact (kept w ⟨scene, fares⟩).2

/-- An event one result is against. -/
theorem Scene.hit_passed {x y : EventRecord} (scene : Scene map a b c w) (wins : Supersedes map x y)
    (listed : resultOf map x y ∈ w.passResults)
    (alone : ∀ result ∈ w.passResults, result.supersededMrid = y.mrid → result = resultOf map x y)
    (winner : ∃ r, w.store.get? x.mrid = some r)
    (fares : w.store.Fares y .waiting ∨ w.store.Fares y (fateUnder map x y)) :
    (w.passed env).store.Fares y (fateUnder map x y) := by
  rw [scene.passed_eq]
  -- The winner stays stored, live or not.
  let There (v : World) : Prop := Scene map a b c v ∧ v.store.events = w.store.events
  have there_step : ∀ result v, There v →
      ∃ v', (supersede map result).eval (World.oracle env) v = (some (), v') ∧ There v' := by
    rintro result v ⟨there, same⟩
    obtain ⟨v', ran, there', events⟩ := scene_supersede result there
    exact ⟨v', ran, there', events.trans same⟩
  have stored : ∀ v, There v → ∃ r, v.store.get? x.mrid = some r := by
    rintro v ⟨-, same⟩
    unfold EventStore.get?
    rw [same]
    exact winner
  have hit : ∀ v, There v → v.store.Fares y .waiting ∨ v.store.Fares y (fateUnder map x y) →
      ((supersede map (resultOf map x y)).eval (World.oracle env) v).2.store.Fares y
        (fateUnder map x y) := fun v there fares => fares_hit there.1.keyed wins (stored v there) fares
  have other : ∀ result v, There v → result.supersededMrid ≠ y.mrid → ∀ fate,
      v.store.Fares y fate →
      ((supersede map result).eval (World.oracle env) v).2.store.Fares y fate :=
    fun result v there against fate fares => fares_other there.1.keyed (Ne.symm against) fares
  have before : ∀ result ∈ w.passResults, ∀ v,
      There v ∧ (v.store.Fares y .waiting ∨ v.store.Fares y (fateUnder map x y)) →
      ∃ v', (supersede map result).eval (World.oracle env) v = (some (), v') ∧
        There v' ∧ (v'.store.Fares y .waiting ∨ v'.store.Fares y (fateUnder map x y)) := by
    rintro result member v ⟨there, fares⟩
    obtain ⟨v', ran, there'⟩ := there_step result v there
    refine ⟨v', ran, there', ?_⟩
    by_cases against : result.supersededMrid = y.mrid
    · have after := hit v there fares
      rw [← alone result member against, ran] at after
      exact .inr after
    · have kept := other result v there against
      rw [ran] at kept
      exact fares.imp (kept _) (kept _)
  have here : ∀ v, There v ∧ (v.store.Fares y .waiting ∨ v.store.Fares y (fateUnder map x y)) →
      There ((supersede map (resultOf map x y)).eval (World.oracle env) v).2 ∧
        ((supersede map (resultOf map x y)).eval (World.oracle env) v).2.store.Fares y
          (fateUnder map x y) := by
    rintro v ⟨there, fares⟩
    obtain ⟨v', ran, there'⟩ := there_step (resultOf map x y) v there
    exact ⟨by rw [ran]; exact there', hit v there fares⟩
  have after : ∀ result ∈ w.passResults,
      Keeps env (fun v => There v ∧ v.store.Fares y (fateUnder map x y)) (supersede map result) := by
    rintro result member v ⟨there, fares⟩
    obtain ⟨v', ran, there'⟩ := there_step result v there
    refine ⟨by rw [ran]; exact there', ?_⟩
    by_cases against : result.supersededMrid = y.mrid
    · rw [alone result member against]
      exact hit v there (.inr fares)
    · exact other result v there against _ fares
  exact (Keeps.forEach_reaches listed before here after w ⟨⟨scene, rfl⟩, fares⟩).2

theorem EventStore.Fares.live {store : EventStore} {x : EventRecord} {fate : Fate}
    (fares : store.Fares x fate) : store.Live x.mrid ↔ fate.1.isTerminal = false := by
  obtain ⟨r, found, -, state, -⟩ := fares
  rw [← state]
  constructor
  · rintro ⟨r', found', running⟩
    cases found.symm.trans found'
    exact running
  · exact fun running => ⟨r, found, running⟩

namespace Chain

/-- No result is against the first event. -/
theorem fares_first (chain : Chain map a b c) (scene : Scene map a b c w) {fate : Fate}
    (fares : w.store.Fares a fate) : (w.passed env).store.Fares a fate := by
  refine scene.fares_passed (fun result member => ?_) fares
  rcases (chain.mem_passResults scene result).mp member with ⟨-, -, rfl⟩ | ⟨-, -, rfl⟩
  · exact chain.distinct.1
  · exact chain.distinct.2.2

/-- A pass marks the second event if the first is there, and the second live. -/
theorem fares_second (env : Answers) (chain : Chain map a b c) (scene : Scene map a b c w)
    (fares : w.store.Fares b .waiting ∨ w.store.Fares b (fateUnder map a b)) :
    (w.store.Live a.mrid ∧ w.store.Live b.mrid →
      (w.passed env).store.Fares b (fateUnder map a b)) ∧
    (¬ (w.store.Live a.mrid ∧ w.store.Live b.mrid) → ∀ fate, w.store.Fares b fate →
      (w.passed env).store.Fares b fate) := by
  constructor
  · rintro ⟨live, live'⟩
    refine scene.hit_passed chain.first ?_ (fun result member against => ?_) ?_ fares
    · exact (chain.mem_passResults scene _).mpr (.inl ⟨live, live', rfl⟩)
    · rcases (chain.mem_passResults scene result).mp member with ⟨-, -, rfl⟩ | ⟨-, -, rfl⟩
      · rfl
      · exact absurd against.symm chain.distinct.2.1
    · obtain ⟨r, found, -⟩ := live
      exact ⟨r, found⟩
  · intro not_ fate fares
    refine scene.fares_passed (fun result member => ?_) fares
    rcases (chain.mem_passResults scene result).mp member with ⟨live, live', rfl⟩ | ⟨-, -, rfl⟩
    · exact absurd ⟨live, live'⟩ not_
    · exact chain.distinct.2.1

/-- A pass marks the third event if the second and the third are live. -/
theorem fares_third (env : Answers) (chain : Chain map a b c) (scene : Scene map a b c w)
    (fares : w.store.Fares c .waiting ∨ w.store.Fares c (fateUnder map b c)) :
    (w.store.Live b.mrid ∧ w.store.Live c.mrid →
      (w.passed env).store.Fares c (fateUnder map b c)) ∧
    (¬ (w.store.Live b.mrid ∧ w.store.Live c.mrid) → ∀ fate, w.store.Fares c fate →
      (w.passed env).store.Fares c fate) := by
  constructor
  · rintro ⟨live, live'⟩
    refine scene.hit_passed chain.second ?_ (fun result member against => ?_) ?_ fares
    · exact (chain.mem_passResults scene _).mpr (.inr ⟨live, live', rfl⟩)
    · rcases (chain.mem_passResults scene result).mp member with ⟨-, -, rfl⟩ | ⟨-, -, rfl⟩
      · exact absurd against chain.distinct.2.1
      · rfl
    · obtain ⟨r, found, -⟩ := live
      exact ⟨r, found⟩
  · intro not_ fate fares
    refine scene.fares_passed (fun result member => ?_) fares
    rcases (chain.mem_passResults scene result).mp member with ⟨-, -, rfl⟩ | ⟨live, live', rfl⟩
    · exact chain.distinct.2.1.symm
    · exact absurd ⟨live, live'⟩ not_

end Chain

/-- A new event is stored, and the others stay as they are. -/
theorem scene_upsert (scene : Scene map a b c w) {x : EventRecord} (one : x ∈ [a, b, c])
    (new : x.state = .scheduled ∧ x.supersededDevices = []) :
    Scene map a b c (World.exec (.upsert x) w) ∧
      (World.exec (.upsert x) w).store.Fares x .waiting ∧
      ∀ y fate, y.mrid ≠ x.mrid → w.store.Fares y fate →
        (World.exec (.upsert x) w).store.Fares y fate := by
  have own : (World.exec (.upsert x) w).record w.store.next = x := Function.update_self _ _ _
  have own' : (World.exec (.upsert x) w).store.object w.store.next = x := own
  have old : ∀ mrid r, w.store.get? mrid = some r →
      (World.exec (.upsert x) w).record r = w.record r := by
    intro mrid r stored
    exact Function.update_of_ne (Nat.ne_of_lt (scene.keyed mrid r stored).1) _ _
  have found : ∀ mrid, (World.exec (.upsert x) w).store.get? mrid =
      if mrid = x.mrid then some w.store.next else w.store.get? mrid := fun mrid =>
    Dict.get?_set _ _ _ _
  refine ⟨⟨scene.devices, exec_keyed _ w scene.keyed, fun mrid r stored => ?_⟩, ?_, ?_⟩
  · rw [found] at stored
    split at stored
    · rename_i same
      cases stored
      refine ⟨x, one, same.symm, ?_⟩
      rw [own]
      exact ⟨_, _, _, rfl⟩
    · rw [old mrid r stored]
      exact scene.only mrid r stored
  · refine ⟨w.store.next, by rw [found, if_pos rfl], ?_, ?_, ?_⟩
    all_goals rw [own']
    · exact ⟨_, _, _, rfl⟩
    · exact new.1
    · rw [new.2]
      rfl
  · rintro y fate other ⟨r, stored, evolves, state, devices⟩
    have same : (World.exec (.upsert x) w).store.object r = w.store.object r := old _ r stored
    refine ⟨r, by rw [found, if_neg other]; exact stored, ?_, ?_, ?_⟩
    all_goals rwa [same]

end Passes

/-! ### Orders of discovery -/

/-- A poll that meets these events before they start: they are stored, and a pass
is made. -/
def World.discover (env : Answers) (batch : List EventRecord) (w : World) : World :=
  (batch.foldl (fun w record => World.exec (.upsert record) w) w).passed env

/-- What a list of results does to the events depends on the events alone. -/
theorem pass_congr (env : Answers) (map : ProgramDevices) (results : List SupersessionResult)
    {w v : World} (keyed : w.store.Keyed) (same : v.store = w.store) :
    ∃ w' v', (forEach results (supersede map)).eval (World.oracle env) w = (some (), w') ∧
      (forEach results (supersede map)).eval (World.oracle env) v = (some (), v') ∧
      v'.store = w'.store ∧ w'.store.Keyed ∧ v'.discovered = v.discovered ∧
      v'.closed = v.closed := by
  induction results generalizing w v with
  | nil => exact ⟨w, v, rfl, rfl, same, keyed, rfl, rfl⟩
  | cons result rest ih =>
      obtain ⟨w₁, ran, keyed₁, -⟩ := supersede_frame env map result keyed
      obtain ⟨v₁, ran', same₁, known, still⟩ : ∃ v₁ : World,
          (supersede map result).eval (World.oracle env) v = (some (), v₁) ∧
          v₁.store = w₁.store ∧ v₁.discovered = v.discovered ∧ v₁.closed = v.closed := by
        by_cases marks : w.store.Marks result
        · obtain ⟨r, found, -⟩ := marks.1
          obtain ⟨w₂, ran₂, taken, -⟩ := supersede_marks env map keyed marks found
          rw [← same] at keyed marks found
          obtain ⟨v₁, ran', taken', rest⟩ := supersede_marks env map keyed marks found
          have here : w₂ = w₁ := congrArg Prod.snd (ran₂.symm.trans ran)
          refine ⟨v₁, ran', ?_, rest⟩
          rw [taken', same, ← here, taken]
        · have here : w = w₁ := congrArg Prod.snd ((supersede_idle env map marks).symm.trans ran)
          rw [← same] at marks
          exact ⟨v, supersede_idle env map marks, here ▸ same, rfl, rfl⟩
      obtain ⟨w', v', first, second, after, keyed', known', still'⟩ := ih keyed₁ same₁
      refine ⟨w', v', ?_, ?_, after, keyed', known'.trans known, still'.trans still⟩
      · change Co.eval (World.oracle env) (Co.bind (supersede map result) _) w = _
        rw [Co.eval_bind, ran]
        exact first
      · change Co.eval (World.oracle env) (Co.bind (supersede map result) _) v = _
        rw [Co.eval_bind, ran']
        exact second

/-- `v` has the events of `w`, and its programs are on the same devices. -/
structure World.Alike (w v : World) : Prop where
  store : v.store = w.store
  devices : v.discovered.deviceMapping.programToDevices =
    w.discovered.deviceMapping.programToDevices

/-- A pass depends on the events and the devices alone. -/
theorem World.Alike.passed {w v : World} (alike : w.Alike v) (env : Answers)
    (keyed : w.store.Keyed) :
    ∃ v', runSupersession.eval (World.oracle env) v = (some (), v') ∧
      v'.store = (w.passed env).store ∧ (w.passed env).store.Keyed ∧
      v'.discovered = v.discovered ∧ v'.closed = v.closed := by
  have results : v.passResults = w.passResults := by
    unfold Core.passResults Core.record
    rw [alike.store, alike.devices]
  obtain ⟨w', v', own, ran, same, rest⟩ := pass_congr env
    w.discovered.deviceMapping.programToDevices w.passResults keyed alike.store
  have passed : w.passed env = w' := by
    unfold World.passed
    rw [eval_runSupersession, own]
  refine ⟨v', ?_, ?_⟩
  · rw [eval_runSupersession, results, alike.devices]
    exact ran
  · rw [passed]
    exact ⟨same, rest⟩

/-- So does what is discovered. -/
theorem World.Alike.discover {w v : World} (alike : w.Alike v) (env : Answers)
    (batch : List EventRecord) (keyed : w.store.Keyed) :
    (v.discover env batch).store = (w.discover env batch).store ∧
      (w.discover env batch).store.Keyed ∧ (v.discover env batch).discovered = v.discovered := by
  have stored : (batch.foldl (fun w record => World.exec (.upsert record) w) w).Alike
      (batch.foldl (fun w record => World.exec (.upsert record) w) v) := by
    induction batch generalizing w v with
    | nil => exact alike
    | cons record rest ih =>
        exact ih ⟨congrArg (·.upsert record) alike.store, alike.devices⟩
          (EventStore.keyed_upsert keyed record)
  obtain ⟨_, _, _, keyed'⟩ := stored_frame batch w
  obtain ⟨v', ran, same, after, known, -⟩ := stored.passed env (keyed' keyed)
  have passed : v.discover env batch = v' := congrArg Prod.snd ran
  rw [passed]
  exact ⟨same, after, known.trans (stored_frame batch v).1⟩

/-- The end of a poll: a pass, and what it forgets. -/
theorem eval_finishPoll (env : Answers) {u v : World} (keyed : u.store.Keyed) (alike : u.Alike v)
    (working : v.closed = false) (p : Href) (now : Int) :
    ∃ last, (finishPoll p now).eval (World.oracle env) v = (some (), last) ∧
      last.store = (u.passed env).store.pruneExpired now ∧ last.discovered = v.discovered ∧
      last.closed = v.closed := by
  obtain ⟨v', ran, same, -, known, still⟩ := alike.passed env keyed
  obtain ⟨_, last, initial, quiet⟩ := eval_beside env (applyInitialDderc_within p) (by decide)
    (by decide) (World.exec (.pruneResponses now) (World.exec (.pruneOffsets now)
      (World.exec (.pruneStore now) v')))
  have pruned : last.store = v'.store.pruneExpired now := quiet.store
  refine ⟨last, ?_, pruned.trans (congrArg (·.pruneExpired now) same), quiet.discovered.trans known,
    quiet.closed.trans still⟩
  rw [finishPoll, Co.bind_eq, Co.eval_bind, ran]
  change Co.eval (World.oracle env) (if v'.closed then _ else _) v' = _
  rw [still, working, if_neg Bool.false_ne_true]
  exact initial

/-- What a poll that discovers the events of `batch`, and forgets none, is served: no event is
missing from its list. -/
structure World.Serves (env : Answers) (w : World) (p : Href) (ps : DerProgramState)
    (batch : List EventRecord) : Prop where
  working : w.closed = false
  found : w.discovered.derPrograms.get? p = some ps
  named : ps.href = p
  complete : w.unserved p ps = []
  rounds : Rounds env p ps.primacy (w.now p) ps.derControls w batch
  fresh : ∀ entry ∈ (w.discover env batch).store.events.entries,
    w.now p ≤ ((w.discover env batch).record entry.2).end + 60

/-- Nothing is pruned that is not 60 s over. -/
theorem pruneExpired_fresh {store : EventStore} {now : Int}
    (fresh : ∀ entry ∈ store.events.entries, now ≤ (store.object entry.2).end + 60) :
    store.pruneExpired now = store := by
  have all : (store.events.filter fun _ r => !((store.object r).end + 60 < now)) = store.events := by
    unfold Dict.filter
    congr 1
    rw [List.filter_eq_self]
    intro entry listed
    simpa using fresh entry listed
  unfold EventStore.pruneExpired
  rw [all]

/-- A poll that runs alone leaves the events `discover` leaves. -/
theorem poll_discovers {env : Answers} {w : World} {p : Href} {ps : DerProgramState} (room : Nat)
    {batch : List EventRecord} (keyed : w.store.Keyed) (serves : w.Serves env p ps batch) :
    ∃ v, (processControls p room).eval (World.oracle env) w = (some (), v) ∧
      v.store = (w.discover env batch).store ∧ v.discovered = w.discovered ∧
      v.closed = w.closed := by
  obtain ⟨working, found, rfl, none_, rounds, fresh⟩ := serves
  obtain ⟨discovered, epoch, closed, keyed'⟩ := stored_frame batch w
  have own : w.objectOf (w.epoch ps.href) ps = ps := by
    unfold Core.objectOf
    rw [if_pos rfl, found, Option.getD_some]
  obtain ⟨v, served, beside⟩ := eval_served (i := 0) (n := ps.derControls.length + room) rounds own
    working (by omega)
  have reconciled : (reconcileServed ps (w.epoch ps.href) (w.now ps.href)).eval (World.oracle env) v
      = (some false, v) := by
    refine eval_reconcileServed env _ ?_ ?_
    · unfold Core.objectOf at own ⊢
      rw [beside.discovered, beside.epoch, discovered, epoch]
      exact own
    · have noted := unserved_stored keyed (fun record new => (rounds.mrids record new).1) none_
      unfold Core.unserved Core.record at noted ⊢
      rw [beside.store]
      exact noted
  have still := beside.closed.trans closed
  obtain ⟨last, finished, same, known, over_⟩ := eval_finishPoll env (keyed' keyed)
    ⟨beside.store, congrArg (·.deviceMapping.programToDevices) beside.discovered⟩
    (still.trans working) ps.href (w.now ps.href)
  refine ⟨last, ?_, same.trans (pruneExpired_fresh fresh), known.trans (beside.discovered.trans discovered),
    over_.trans still⟩
  change Co.eval (World.oracle env) (if w.closed then _ else _) w = _
  rw [working, if_neg Bool.false_ne_true, eval_getWorld, found]
  dsimp only
  rw [Co.bind_eq, Co.eval_bind, served]
  change Co.eval (World.oracle env) (Co.bind (reconcileServed _ _ _) _) v = _
  rw [Co.eval_bind, reconciled]
  exact finished

/-- One poll after the other. -/
def World.discoverAll (env : Answers) (batches : List (List EventRecord)) (w : World) : World :=
  batches.foldl (fun w batch => w.discover env batch) w

/-- Polls that run alone one after the other, each of which discovers a batch. In between the
surroundings move as they will, but for the devices of the programs. -/
inductive Polls (env : Answers) (w : World) : List (List EventRecord) → World → Prop where
  | start : Polls env w [] w
  | poll {batches : List (List EventRecord)} {batch : List EventRecord} {v : World} {p : Href}
      {ps : DerProgramState} (room : Nat) : Polls env w batches v → v.Serves env p ps batch →
      Polls env w (batches ++ [batch]) ((processControls p room).eval (World.oracle env) v).2
  | between {batches : List (List EventRecord)} {v u : World} : Polls env w batches v →
      v.Alike u → Polls env w batches u

/-- Such polls leave the events `discoverAll` leaves. -/
theorem polls_discover {env : Answers} {w v : World} {batches : List (List EventRecord)}
    (keyed : w.store.Keyed) (polls : Polls env w batches v) :
    (w.discoverAll env batches).Alike v ∧ (w.discoverAll env batches).store.Keyed ∧
      (w.discoverAll env batches).discovered = w.discovered := by
  induction polls with
  | start => exact ⟨⟨rfl, rfl⟩, keyed, rfl⟩
  | between _ alike ih =>
      exact ⟨⟨alike.store.trans ih.1.store, alike.devices.trans ih.1.devices⟩, ih.2⟩
  | @poll batches batch v p ps room _ serves ih =>
      obtain ⟨alike, keyed', known⟩ := ih
      have keyed_v : v.store.Keyed := by
        rw [alike.store]
        exact keyed'
      obtain ⟨last, ran, same, known', -⟩ := poll_discovers room keyed_v serves
      obtain ⟨same', after, -⟩ := alike.discover env batch keyed'
      have next : w.discoverAll env (batches ++ [batch]) =
          (w.discoverAll env batches).discover env batch := by
        unfold World.discoverAll
        rw [List.foldl_append]
        rfl
      have known_next := (World.Alike.mk rfl rfl : (w.discoverAll env batches).Alike
        (w.discoverAll env batches)).discover env batch keyed'
      rw [next, ran]
      refine ⟨⟨same.trans same', ?_⟩, after, known_next.2.2.trans known⟩
      rw [known', alike.devices, known_next.2.2]

/-- The third event fares the same for every order in which the three are met. -/
def SameFate (env : Answers) (w : World) (a b c : EventRecord) : Prop :=
  ∀ batches batches' : List (List EventRecord),
    batches.flatten.Perm [a, b, c] → batches'.flatten.Perm [a, b, c] →
    (w.discoverAll env batches).store.fate c.mrid = (w.discoverAll env batches').store.fate c.mrid

/-- What is known once the events of `xs` are met. -/
structure Noted (map : ProgramDevices) (a b c : EventRecord) (xs : List EventRecord) (w : World) :
    Prop where
  scene : Scene map a b c w
  first : a ∈ xs → w.store.Fares a .waiting
  second : b ∈ xs → w.store.Fares b .waiting ∨ w.store.Fares b (fateUnder map a b)
  third : c ∈ xs → w.store.Fares c .waiting ∨ w.store.Fares c (fateUnder map b c)

section Orders

variable {env : Answers} {map : ProgramDevices} {a b c : EventRecord} {w : World}
  {xs : List EventRecord}

theorem Noted.upsert (chain : Chain map a b c) (noted : Noted map a b c xs w) {x : EventRecord}
    (one : x ∈ [a, b, c]) : Noted map a b c (xs ++ [x]) (World.exec (.upsert x) w) := by
  obtain ⟨scene, own, other⟩ := scene_upsert noted.scene one (chain.new x one)
  -- An event that was not met before is the new one.
  have met : ∀ y ∈ [a, b, c], y ∈ xs ++ [x] → y = x ∨ (y ∈ xs ∧ y.mrid ≠ x.mrid) := by
    intro y two member
    by_cases same : y.mrid = x.mrid
    · exact .inl (chain.unique two one same)
    · refine .inr ⟨?_, same⟩
      rcases List.mem_append.mp member with old | new
      · exact old
      · exact absurd (congrArg EventRecord.mrid (List.mem_singleton.mp new)) same
  refine ⟨scene, fun member => ?_, fun member => ?_, fun member => ?_⟩
  · rcases met a (by simp) member with rfl | ⟨old, different⟩
    · exact own
    · exact other a _ different (noted.first old)
  · rcases met b (by simp) member with rfl | ⟨old, different⟩
    · exact .inl own
    · exact (noted.second old).imp (other b _ different) (other b _ different)
  · rcases met c (by simp) member with rfl | ⟨old, different⟩
    · exact .inl own
    · exact (noted.third old).imp (other c _ different) (other c _ different)

theorem Noted.passed (env : Answers) (chain : Chain map a b c) (noted : Noted map a b c xs w) :
    Noted map a b c xs (w.passed env) := by
  refine ⟨(noted.scene.passed env).1, fun member => ?_, fun member => ?_, fun member => ?_⟩
  · exact chain.fares_first noted.scene (noted.first member)
  · obtain ⟨hit, spared⟩ := chain.fares_second env noted.scene (noted.second member)
    by_cases live : w.store.Live a.mrid ∧ w.store.Live b.mrid
    · exact .inr (hit live)
    · exact (noted.second member).imp (spared live _) (spared live _)
  · obtain ⟨hit, spared⟩ := chain.fares_third env noted.scene (noted.third member)
    by_cases live : w.store.Live b.mrid ∧ w.store.Live c.mrid
    · exact .inr (hit live)
    · exact (noted.third member).imp (spared live _) (spared live _)

theorem Noted.stored (chain : Chain map a b c) (noted : Noted map a b c xs w)
    (batch : List EventRecord) (ours : ∀ x ∈ batch, x ∈ [a, b, c]) :
    Noted map a b c (xs ++ batch) (batch.foldl (fun w record => World.exec (.upsert record) w) w) := by
  induction batch generalizing xs w with
  | nil => simpa using noted
  | cons x rest ih =>
      have next := ih (noted.upsert chain (ours x List.mem_cons_self))
        fun y member => ours y (List.mem_cons_of_mem x member)
      rwa [List.append_assoc] at next

theorem Noted.discoverAll (env : Answers) (chain : Chain map a b c) (noted : Noted map a b c xs w)
    (batches : List (List EventRecord)) (ours : ∀ x ∈ batches.flatten, x ∈ [a, b, c]) :
    Noted map a b c (xs ++ batches.flatten) (w.discoverAll env batches) := by
  induction batches generalizing xs w with
  | nil =>
      rw [List.flatten_nil, List.append_nil]
      exact noted
  | cons batch rest ih =>
      rw [List.flatten_cons] at ours ⊢
      have stored := noted.stored chain batch fun x member => ours x (List.mem_append_left _ member)
      have next := ih (stored.passed env chain) fun x member => ours x (List.mem_append_right _ member)
      rwa [List.append_assoc] at next

/-- A pass with the second event live settles the third. -/
theorem Noted.settles (chain : Chain map a b c) (noted : Noted map a b c xs w) (met : c ∈ xs)
    (live : w.store.Live b.mrid) : (w.passed env).store.Fares c (fateUnder map b c) := by
  obtain ⟨hit, spared⟩ := chain.fares_third env noted.scene (noted.third met)
  by_cases live' : w.store.Live c.mrid
  · exact hit ⟨live, live'⟩
  · rcases noted.third met with waits | already
    · exact absurd (waits.live.mpr rfl) live'
    · exact spared (fun both => live' both.2) _ already

/-- Unless the first event covers the second, the second stays live. -/
theorem Noted.live_second (noted : Noted map a b c xs w) (met : b ∈ xs)
    (partly : ¬ ∀ d ∈ map.getD b.programHref [], d ∈ map.getD a.programHref []) :
    w.store.Live b.mrid := by
  rcases noted.second met with waits | marked
  · exact waits.live.mpr rfl
  · refine marked.live.mpr ?_
    rw [fateUnder, if_neg partly]
    rfl

/-- Nothing is met yet. -/
theorem Noted.empty (map : ProgramDevices) (a b c : EventRecord) (none_ : w.store = {})
    (devices : w.discovered.deviceMapping.programToDevices = map) : Noted map a b c [] w := by
  refine ⟨⟨devices, ?_, ?_⟩, nofun, nofun, nofun⟩ <;> rw [none_]
  · rintro mrid r ⟨⟩
  · rintro mrid r ⟨⟩

/-- A third event that is met while the second is live is superseded. -/
theorem Chain.takes_third (chain : Chain map a b c) (scene : Scene map a b c w) {fate : Fate}
    (fares : w.store.Fares b fate) (live : fate.1.isTerminal = false) :
    ((World.exec (.upsert c) w).passed env).store.Fares c (fateUnder map b c) := by
  obtain ⟨scene', own, other⟩ := scene_upsert scene (by simp) (chain.new c (by simp))
  refine (chain.fares_third env scene' (.inl own)).1 ⟨?_, own.live.mpr rfl⟩
  exact (other b _ chain.distinct.2.1 fares).live.mpr live

/-- A third event that is met once the second has ended is spared. -/
theorem Chain.spares_third (chain : Chain map a b c) (scene : Scene map a b c w) {fate : Fate}
    (fares : w.store.Fares b fate) (ended : fate.1.isTerminal = true) :
    ((World.exec (.upsert c) w).passed env).store.Fares c .waiting := by
  obtain ⟨scene', own, other⟩ := scene_upsert scene (by simp) (chain.new c (by simp))
  refine (chain.fares_third env scene' (.inl own)).2 (fun both => ?_) _ own
  have running := (other b _ chain.distinct.2.1 fares).live.mp both.1
  rw [ended] at running
  cases running

/-- The third event fares the same for every order of discovery, unless the first
reaches every device of the second. -/
theorem chain_fates (none_ : w.store = {})
    (devices : w.discovered.deviceMapping.programToDevices = map) (chain : Chain map a b c) :
    SameFate env w a b c ↔
      ¬ ∀ d ∈ map.getD b.programHref [], d ∈ map.getD a.programHref [] := by
  have start := Noted.empty map a b c none_ devices
  constructor
  · intro same all
    -- All three in one poll, or the third one later.
    obtain ⟨scene₁, fares_a, -⟩ := scene_upsert start.scene (by simp) (chain.new a (by simp))
    obtain ⟨scene₂, fares_b, other⟩ := scene_upsert scene₁ (by simp) (chain.new b (by simp))
    have together : (w.discoverAll env [[a, b, c]]).store.Fares c (fateUnder map b c) := by
      simp only [World.discoverAll, World.discover, List.foldl_cons, List.foldl_nil]
      exact chain.takes_third scene₂ fares_b rfl
    have later : (w.discoverAll env [[a, b], [c]]).store.Fares c .waiting := by
      have live := (other a _ chain.distinct.1 fares_a).live.mpr rfl
      have ended := (chain.fares_second env scene₂ (.inl fares_b)).1 ⟨live, fares_b.live.mpr rfl⟩
      simp only [World.discoverAll, World.discover, List.foldl_cons, List.foldl_nil]
      refine chain.spares_third (scene₂.passed env).1 ended ?_
      rw [fateUnder, if_pos all]
      rfl
    have fates := same [[a, b, c]] [[a, b], [c]] (List.Perm.refl _) (List.Perm.refl _)
    rw [together.fate, later.fate] at fates
    have none_ := congrArg Prod.snd (Option.some.inj fates)
    exact sharedDevices_ne_nil chain.second ((List.toFinset_eq_empty_iff _).mp none_)
  · intro partly batches batches' all all'
    have settled : ∀ batches : List (List EventRecord), batches.flatten.Perm [a, b, c] →
        (w.discoverAll env batches).store.Fares c (fateUnder map b c) := by
      intro batches all
      rcases List.eq_nil_or_concat batches with rfl | ⟨earlier, last, rfl⟩
      · exact absurd all.length_eq (by simp)
      · have ours : ∀ x ∈ (earlier.concat last).flatten, x ∈ [a, b, c] := fun x => all.mem_iff.mp
        rw [List.concat_eq_append, List.flatten_append] at ours all
        rw [List.flatten_singleton] at ours all
        have before := start.discoverAll env chain earlier
          fun x member => ours x (List.mem_append_left _ member)
        have noted := before.stored chain last fun x member => ours x (List.mem_append_right _ member)
        rw [List.nil_append] at noted
        have live := noted.live_second (all.mem_iff.mpr (by simp)) partly
        unfold World.discoverAll
        rw [List.concat_eq_append, List.foldl_append]
        exact noted.settles chain (all.mem_iff.mpr (by simp)) live
    rw [(settled batches all).fate, (settled batches' all').fate]

end Orders

/-- A control of the chain. -/
def chainControl (mrid : Mrid) (start : Int) (created : Int) : Dercontrol :=
  { plainControl mrid start 100 .opModFixedW with creationTime := some created }

/-- The first two controls overlap, and so do the last two; the newer one wins. -/
def chainControls : List Dercontrol :=
  [chainControl 1 100 3, chainControl 2 150 2, chainControl 3 220 1]

/-- A program on one device. -/
def chainCore (controls : List Dercontrol) : Core :=
  plainCore [plainProgram "/derp/1" 1 controls] [("/derp/1", "/edev/1")]

/-- All three are met in one poll. -/
def chainTogether : World := World.polled "/derp/1" { toCore := chainCore chainControls }

/-- The third is met in a second poll. -/
def chainLater : World :=
  World.polled "/derp/1" { World.polled "/derp/1" { toCore := chainCore (chainControls.take 2) } with
    discovered := (chainCore chainControls).discovered }

/-- What a poll that meets the controls has stored when its pass starts. -/
def chainStored (controls : List Dercontrol) : World :=
  controls.foldl (fun w derc => World.exec (.upsert
    (newRecord derc "/derp/1" 1 .scheduled derc.start derc.duration)) w)
    { toCore := chainCore controls }

/-- The first event's program reaches one of the two devices of the others' program. -/
def branchPrograms : DerProgramState × DerProgramState :=
  (plainProgram "/derp/0" 0 [chainControl 1 100 3],
    plainProgram "/derp/1" 1 [chainControl 2 150 2, chainControl 3 220 1])

def branchCore : Core :=
  plainCore [branchPrograms.1, branchPrograms.2]
    [("/derp/0", "/edev/1"), ("/derp/1", "/edev/1"), ("/derp/1", "/edev/2")]

def branchMap : ProgramDevices := branchCore.discovered.deviceMapping.programToDevices

def branchFirst : EventRecord := newRecord (chainControl 1 100 3) "/derp/0" 0 .scheduled 100 100

def branchSecond : EventRecord := newRecord (chainControl 2 150 2) "/derp/1" 1 .scheduled 150 100

def branchThird : EventRecord := newRecord (chainControl 3 220 1) "/derp/1" 1 .scheduled 220 100

/-- All three are stored, and none was compared. -/
def branchStored : World :=
  [branchFirst, branchSecond, branchThird].foldl (fun w record => World.exec (.upsert record) w)
    { toCore := branchCore }

/-- A poll of `p`. -/
def branchPoll (p : Href) (w : World) : World :=
  ((processControls p 0).eval (World.oracle {}) w).2

/-- The first event is met in a first poll, or in a second one. -/
theorem branchPolls :
    Polls {} { toCore := branchCore } [[branchFirst], [branchSecond, branchThird]]
      (branchPoll "/derp/1" (branchPoll "/derp/0" { toCore := branchCore })) ∧
    Polls {} { toCore := branchCore } [[branchSecond, branchThird], [branchFirst]]
      (branchPoll "/derp/0" (branchPoll "/derp/1" { toCore := branchCore })) := by
  -- What each of the two polls is served, where it is the first and where it is the second.
  have one : World.Serves {} { toCore := branchCore } "/derp/0" branchPrograms.1 [branchFirst] :=
    ⟨by decide, rfl, by decide, by decide,
      .new ⟨by decide, by decide, by decide, by decide, by decide⟩ (.done _), by decide⟩
  have others : World.Serves {} { toCore := branchCore } "/derp/1" branchPrograms.2
      [branchSecond, branchThird] :=
    ⟨by decide, rfl, by decide, by decide,
      .new ⟨by decide, by decide, by decide, by decide, by decide⟩
        (.new ⟨by decide, by decide, by decide, by decide, by decide⟩ (.done _)), by decide +kernel⟩
  have others' : World.Serves {} (branchPoll "/derp/0" { toCore := branchCore }) "/derp/1"
      branchPrograms.2 [branchSecond, branchThird] :=
    ⟨by decide, rfl, by decide, by decide,
      .new ⟨by decide, by decide, by decide, by decide, by decide⟩
        (.new ⟨by decide, by decide, by decide, by decide, by decide⟩ (.done _)), by decide +kernel⟩
  have one' : World.Serves {} (branchPoll "/derp/1" { toCore := branchCore }) "/derp/0"
      branchPrograms.1 [branchFirst] :=
    ⟨by decide, rfl, by decide, by decide,
      .new ⟨by decide, by decide, by decide, by decide, by decide⟩ (.done _), by decide +kernel⟩
  exact ⟨.poll 0 (.poll 0 .start one) others', .poll 0 (.poll 0 .start others) one'⟩

theorem branch_chain : Chain branchMap branchFirst branchSecond branchThird where
  first := ⟨.inl (by decide), by decide, .inl (by decide), "/edev/1", by decide, by decide⟩
  second := ⟨.inr ⟨by decide, by decide⟩, by decide, .inl (by decide), "/edev/1", by decide,
    by decide⟩
  apart := by decide
  distinct := by decide
  new := by decide

end Py20305
