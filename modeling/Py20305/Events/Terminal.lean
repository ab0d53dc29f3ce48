import Py20305.Events.Effects

/-!
Ended events stay ended.

`EventStore.transition` checks nothing, so this rests on what each task knows of
a record when it transitions it. Two tasks keep a record in hand across an await
and transition it afterwards without another look: `_run_supersession`, while
the SUPERSEDED responses are posted, and rule p), which goes through a list made
before its first await. `World.held` is what each task has in hand like this. A
third way is through the store: a transition goes by mRID, and a record that was
pruned before its end may have been replaced under its mRID.

`terminal_absorbing`: in every run none of whose steps ends a record that
another live task has in hand, and none of whose steps stores an mRID while
another record made for it has not ended, a record that has ended keeps its
state. The proof is a rely-guarantee argument (`absorbing`): every task leaves
ended records and the hands of others alone, and relies on what it has in hand
not being ended.
-/

namespace Py20305

open Coroutine Co

namespace Core

/-- The record has not ended. -/
def Live (w : Core) (r : Ref) : Prop := (w.record r).state.isTerminal = false

/-- Under the mRID of `r` nothing but `r` is stored. -/
def Sole (w : Core) (r : Ref) : Prop := ∀ q, w.store.get? (w.record r).mrid = some q → q = r

end Core

/-! ### What tasks leave alone -/

/-- What the steps of every task keep: ended records, mRIDs, and entries but
for new records. -/
structure Stays (w w' : World) : Prop where
  next : w.store.next ≤ w'.store.next
  mrid : ∀ r < w.store.next, (w'.record r).mrid = (w.record r).mrid
  ended : ∀ r < w.store.next, ¬ w.Live r → (w'.record r).state = (w.record r).state
  unmade : ∀ r, w'.store.next ≤ r → (w'.record r).state = (w.record r).state
  entries : ∀ mrid r, w'.store.get? mrid = some r →
    w.store.get? mrid = some r ∨ w.store.next ≤ r
  fresh : ∀ r, w.store.next ≤ r → r < w'.store.next →
    ∀ q, w'.store.get? (w'.record r).mrid = some q → w.store.next ≤ q
  keyed : w.store.Keyed → w'.store.Keyed
  cancelled : ∀ q ∈ w.cancelled, q ∈ w'.cancelled

namespace Stays

variable {w w' w'' : World}

theorem trans (first : Stays w w') (second : Stays w' w'') : Stays w w'' where
  next := first.next.trans second.next
  mrid := by
    intro r made
    rw [second.mrid r (made.trans_le first.next), first.mrid r made]
  ended := by
    intro r made ended
    have same := first.ended r made ended
    have still : ¬ w'.Live r := by
      unfold Core.Live at ended ⊢
      rwa [same]
    rw [second.ended r (made.trans_le first.next) still, same]
  unmade := by
    intro r unmade
    rw [second.unmade r unmade, first.unmade r (second.next.trans unmade)]
  entries := by
    intro mrid r found
    rcases second.entries mrid r found with before | new
    · exact first.entries mrid r before
    · exact .inr (first.next.trans new)
  fresh := by
    intro r new made q found
    by_cases early : r < w'.store.next
    · rw [second.mrid r early] at found
      rcases second.entries _ q found with before | later
      · exact first.fresh r new early q before
      · exact first.next.trans later
    · exact first.next.trans (second.fresh r (Nat.le_of_not_lt early) made q found)
  keyed := fun keyed => second.keyed (first.keyed keyed)
  cancelled := fun q gone => second.cancelled q (first.cancelled q gone)

theorem of_kept (kept : EventsKept w w') (cancelled : ∀ q ∈ w.cancelled, q ∈ w'.cancelled) :
    Stays w w' where
  next := kept.next.ge
  mrid := fun r _ => kept.mrid r
  ended := fun r _ _ => kept.state r
  unmade := fun r _ => kept.state r
  entries := fun mrid _ found => .inl (kept.get? mrid ▸ found)
  fresh := fun _ new made => absurd made (Nat.not_lt.mpr (kept.next.le.trans new))
  keyed := kept.keyed
  cancelled := cancelled

theorem refl (w : World) : Stays w w := of_kept (EventsKept.refl w) fun _ gone => gone

/-- A transition of a record that has not ended. -/
theorem setState {r : Ref} (live : w.Live r) (made : r < w.store.next) (st : EventState) :
    Stays w (World.exec (.setState r st) w) := by
  have other : ∀ q, q ≠ r → (World.exec (.setState r st) w).record q = w.record q :=
    fun q different => record_setState_ne w st different
  refine ⟨le_rfl, fun q _ => mrid_setState w r q st, ?_, ?_, fun _ _ found => .inl found, ?_,
    exec_keyed _ w, fun _ gone => gone⟩
  · intro q _ ended
    have different : q ≠ r := by
      rintro rfl
      exact ended live
    rw [other q different]
  · intro q unmade
    rw [other q (Nat.ne_of_gt (made.trans_le unmade))]
  · exact fun q new early => absurd early (Nat.not_lt.mpr new)

/-- A new record under an mRID that is not stored. -/
theorem upsert {record : EventRecord} (absent : w.store.get? record.mrid = none) :
    Stays w (World.exec (.upsert record) w) := by
  have old : ∀ q, q ≠ w.store.next →
      (World.exec (.upsert record) w).record q = w.record q :=
    fun q different => Function.update_of_ne different _ _
  have entry : ∀ mrid q, (World.exec (.upsert record) w).store.get? mrid = some q →
      w.store.get? mrid = some q ∨ w.store.next ≤ q := by
    intro mrid q found
    simp only [World.exec, Core.exec, EventStore.get?, EventStore.upsert, Dict.get?_set] at found
    split at found
    · cases found
      exact .inr le_rfl
    · exact .inl found
  refine ⟨Nat.le_succ _, ?_, ?_, ?_, entry, ?_, exec_keyed _ w, fun _ gone => gone⟩
  · intro q made
    rw [old q (Nat.ne_of_lt made)]
  · intro q made _
    rw [old q (Nat.ne_of_lt made)]
  · intro q unmade
    rw [old q (Nat.ne_of_gt (Nat.lt_of_succ_le unmade))]
  · intro q new made found_ found
    have same : q = w.store.next := Nat.le_antisymm (Nat.le_of_lt_succ made) new
    have own : (World.exec (.upsert record) w).record q = record := by
      rw [same]
      exact Function.update_self _ _ _
    rw [own] at found
    rcases entry _ _ found with before | later
    · rw [absent] at before
      cases before
    · exact later

theorem prune (now : Int) : Stays w (World.exec (.pruneStore now) w) where
  next := le_rfl
  mrid := fun _ _ => rfl
  ended := fun _ _ _ => rfl
  unmade := fun _ _ => rfl
  entries := fun _ _ found => .inl (EventStore.get?_pruneExpired found)
  fresh := fun _ new made => absurd made (Nat.not_lt.mpr new)
  keyed := exec_keyed _ w
  cancelled := fun _ gone => gone

end Stays

section Kept

variable {w w' : World} (kept : EventsKept w w')

include kept

theorem EventsKept.live_iff (r : Ref) : w'.Live r ↔ w.Live r := by
  unfold Core.Live
  rw [kept.state r]

theorem EventsKept.sole_iff (r : Ref) : w'.Sole r ↔ w.Sole r := by
  unfold Core.Sole
  rw [kept.mrid r]
  simp only [kept.get?]

end Kept

/-! ### The bookkeeping of tasks -/

theorem spawn_tasks (w : Core) (r : Ref) (devices : List Href) :
    (devices.foldl (fun w d => w.spawnChild r d) w).current = w.current ∧
      (devices.foldl (fun w d => w.spawnChild r d) w).cancelled = w.cancelled := by
  induction devices generalizing w with
  | nil => exact ⟨rfl, rfl⟩
  | cons d rest ih => exact ih _

theorem exec_current (c : Cmd) (w : World) : (World.exec c w).current = w.current := by
  cases c with
  | spawn r devices => exact (spawn_tasks w.toCore r devices).1
  | _ => rfl

theorem exec_cancelled (c : Cmd) (w : World) : ∀ q ∈ w.cancelled, q ∈ (World.exec c w).cancelled := by
  intro q gone
  cases c with
  | spawn r devices =>
      change q ∈ (devices.foldl (fun w d => w.spawnChild r d) w.toCore).cancelled
      rwa [(spawn_tasks w.toCore r devices).2]
  | cancelTimers | close => exact List.mem_append_right _ gone
  | _ => exact gone

theorem exec_held {c : Cmd} (other : c.effect ≠ .hold) (w : World) :
    (World.exec c w).held = w.held := by
  cases c with
  | hold => exact absurd rfl other
  | _ => rfl

/-- An answer goes to a live task, and touches only what it says. -/
theorem reply_task {w w' : World} {p : Pid} {r : Request} {a : r.Answer}
    (replied : w.reply p r a = some w') :
    p ∉ w.cancelled ∧ w'.current = p ∧ w'.held = w.held ∧ w'.cancelled = w.cancelled := by
  obtain ⟨live, _, _, rfl⟩ := reply_spec replied
  exact ⟨live, rfl, rfl, rfl⟩

theorem begins_task {w w' : World} {p : Pid} {j : Job} (begun : w.begins p j = some w') :
    w'.current = p ∧ w'.held = w.held ∧ w'.cancelled = w.cancelled := by
  obtain ⟨core, started, rfl⟩ := Option.map_eq_some_iff.mp begun
  change core.current = p ∧ w.held = w.held ∧ core.cancelled = w.cancelled
  cases j with
  | timer callback r =>
      simp only [Core.begins] at started
      split at started
      · cases started
      · split_ifs at started
        cases started
        exact ⟨rfl, rfl, rfl⟩
  | _ =>
      simp only [Core.begins] at started
      split_ifs at started
      cases started
      exact ⟨rfl, rfl, rfl⟩

/-! ### Rely and guarantee -/

/-- What holds whenever nobody runs: records that are not made have ended, so to
speak, and a record that has not ended is the one stored under its mRID, if
any is. -/
structure Settled (w : World) : Prop where
  keyed : w.store.Keyed
  unmade : ∀ r, w.store.next ≤ r → ¬ w.Live r
  sole : ∀ r, w.Live r → w.Sole r

theorem Settled.kept {w w' : World} (settled : Settled w) (kept : EventsKept w w') : Settled w' where
  keyed := kept.keyed settled.keyed
  unmade := by
    intro r unmade
    rw [kept.live_iff]
    exact settled.unmade r (kept.next ▸ unmade)
  sole := by
    intro r live
    rw [kept.sole_iff]
    exact settled.sole r ((kept.live_iff r).mp live)

/-- A step that neither ends what another live task has in hand nor stores an
mRID while another record made for it has not ended. -/
structure Careful (w : World) (l : Label processor) (w' : World) : Prop where
  hands : ∀ p, l.pid = some p → ∀ q, q ≠ p → q ∉ w'.cancelled →
    ∀ r ∈ w.held q, w.Live r → w'.Live r
  stores : ∀ q, w.store.next ≤ q → q < w'.store.next →
    ∀ r, w'.Live r → (w'.record r).mrid = (w'.record q).mrid → r = q

/-- What a task counts on: what it has in hand does not end under it, unless it
is cancelled. -/
structure Unharmed (p : Pid) (w w' : World) : Prop where
  stays : Stays w w'
  held : p ∉ w'.cancelled → w'.held p = w.held p
  live : p ∉ w'.cancelled → ∀ r ∈ w.held p, w.Live r → w'.Live r

theorem Unharmed.trans {p : Pid} {w w' w'' : World} (first : Unharmed p w w')
    (second : Unharmed p w' w'') : Unharmed p w w'' where
  stays := first.stays.trans second.stays
  held := by
    intro alive
    have before : p ∉ w'.cancelled := fun gone => alive (second.stays.cancelled p gone)
    rw [second.held alive, first.held before]
  live := by
    intro alive r member live
    have before : p ∉ w'.cancelled := fun gone => alive (second.stays.cancelled p gone)
    refine second.live alive r ?_ (first.live before r member live)
    rwa [first.held before]

/-- A step of one task, seen by the next time nobody runs. -/
theorem settled_of_stays {w w' : World} {l : Label processor} (settled : Settled w)
    (stays : Stays w w') (careful : Careful w l w') : Settled w' where
  keyed := stays.keyed settled.keyed
  unmade := by
    intro r unmade
    unfold Core.Live
    rw [stays.unmade r unmade]
    exact settled.unmade r (stays.next.trans unmade)
  sole := by
    intro r live q found
    obtain ⟨made, own⟩ := stays.keyed settled.keyed _ _ found
    by_cases new : w.store.next ≤ q
    · exact (careful.stores q new made r live own.symm).symm
    · have old : r < w.store.next := by
        by_contra late
        have early : r < w'.store.next := by
          by_contra unmade
          unfold Core.Live at live
          rw [stays.unmade r (Nat.le_of_not_lt unmade)] at live
          exact settled.unmade r (Nat.le_of_not_lt late) live
        exact new (stays.fresh r (Nat.le_of_not_lt late) early q found)
      have before : w.Live r := by
        by_contra ended
        unfold Core.Live at live
        rw [stays.ended r old ended] at live
        exact ended live
      rcases stays.entries _ q found with there | late
      · rw [stays.mrid r old] at there
        exact settled.sole r before q there
      · exact absurd late new

/-- Every task leaves ended records and other hands alone, and relies on its own
hands. -/
def absorbing : RelyGuarantee processor where
  rely := Unharmed
  guar := fun p w w' => Stays w w' ∧ ∀ q, q ≠ p → w'.held q = w.held q
  inv := Settled
  ok := Careful
  rely_trans := Unharmed.trans
  rely_refl := fun _ => ⟨Stays.refl _, fun _ => rfl, fun _ _ _ live => live⟩
  guar_refl := ⟨Stays.refl _, fun _ _ => rfl⟩
  guar_trans := fun first second =>
    ⟨first.1.trans second.1, fun q other => (second.2 q other).trans (first.2 q other)⟩
  interfere := by
    intro p w w' l settled kept owner careful
    refine ⟨settled_of_stays settled kept.1 careful, fun q other => ⟨kept.1, ?_, ?_⟩⟩
    · exact fun _ => kept.2 q other
    · exact fun alive => careful.hands p owner q other alive
  external := by
    rintro e w w' settled ⟨⟩ _
    have kept : EventsKept w { w with toCore := e.apply w.toCore } := by
      refine EventsKept.of_store ?_
      cases e <;> rfl
    have cancelled : (e.apply w.toCore).cancelled = w.cancelled := by cases e <;> rfl
    refine ⟨settled.kept kept, fun q => ⟨Stays.of_kept kept ?_, fun _ => rfl, ?_⟩⟩
    · intro q gone
      rwa [cancelled]
    · exact fun _ r _ live => (kept.live_iff r).mpr live

/-! ### What a task knows of the records in its hand -/

/-- Task `p` runs, with `rs` in hand: none of them has ended, and none was
replaced in the store. -/
structure Hand (p : Pid) (rs : List Ref) (w : World) : Prop where
  current : w.current = p
  keyed : w.store.Keyed
  held : ∀ r ∈ rs, r ∈ w.held p
  live : ∀ r ∈ rs, w.Live r
  sole : ∀ r ∈ rs, w.Sole r

theorem Hand.empty {p : Pid} {rs : List Ref} {w : World} (hand : Hand p rs w) : Hand p [] w :=
  ⟨hand.current, hand.keyed, by simp, by simp, by simp⟩

/-- The effects that touch neither events nor hands. -/
abbrev movers : List Effect := .control :: .issue :: .spawn :: .refresh :: .offsets :: carriers

theorem movers_subset : movers ⊆ bystanders := by decide

section Pieces

variable {α : Type} {p : Pid} {rs : List Ref} {w : World}

theorem kept_guar {c : Cmd} (kept : EventsKept w (World.exec c w)) (other : c.effect ≠ .hold)
    (p : Pid) : absorbing.guar p w (World.exec c w) := by
  refine ⟨Stays.of_kept kept (exec_cancelled c w), ?_⟩
  intro q _
  rw [exec_held other]

theorem kept_hand {c : Cmd} (kept : EventsKept w (World.exec c w)) (other : c.effect ≠ .hold)
    (hand : Hand p rs w) : Hand p rs (World.exec c w) := by
  refine ⟨(exec_current c w).trans hand.current, kept.keyed hand.keyed, ?_, ?_, ?_⟩
  · intro r member
    rw [exec_held other]
    exact hand.held r member
  · exact fun r member => (kept.live_iff r).mpr (hand.live r member)
  · exact fun r member => (kept.sole_iff r).mpr (hand.sole r member)

theorem ne_hold_of_mover {c : Cmd} (listed : c.effect ∈ movers) :
    c.effect ≠ .hold := by
  intro same
  rw [same] at listed
  revert listed
  decide

theorem carrier_guar {c : Cmd} (listed : c.effect ∈ movers) (p : Pid) (w : World) :
    absorbing.guar p w (World.exec c w) :=
  kept_guar (bystander_exec (movers_subset listed) w) (ne_hold_of_mover listed) p

theorem carrier_hand {c : Cmd} (listed : c.effect ∈ movers) (hand : Hand p rs w) :
    Hand p rs (World.exec c w) :=
  kept_hand (bystander_exec (movers_subset listed) w) (ne_hold_of_mover listed) hand

theorem reply_guar {w w' : World} {r : Request} {a : r.Answer}
    (replied : w.reply p r a = some w') : absorbing.guar p w w' := by
  obtain ⟨-, -, held, cancelled⟩ := reply_task replied
  refine ⟨Stays.of_kept (EventsKept.of_store (reply_store replied)) ?_, ?_⟩
  · intro q gone
    rwa [cancelled]
  · intro q _
    rw [held]

/-- After a wait a task finds what it has in hand as it was. -/
theorem reply_hand {w' w'' : World} {r : Request} {a : r.Answer} (hand : Hand p rs w)
    (unharmed : Unharmed p w w') (settled : Settled w')
    (replied : w'.reply p r a = some w'') : Hand p rs w'' := by
  obtain ⟨alive, current, held, -⟩ := reply_task replied
  have kept : EventsKept w' w'' := EventsKept.of_store (reply_store replied)
  have live : ∀ r ∈ rs, w'.Live r := fun r member =>
    unharmed.live alive r (hand.held r member) (hand.live r member)
  refine ⟨current, kept.keyed settled.keyed, ?_, ?_, ?_⟩
  · intro r member
    rw [held, unharmed.held alive]
    exact hand.held r member
  · exact fun r member => (kept.live_iff r).mpr (live r member)
  · exact fun r member => (kept.sole_iff r).mpr (settled.sole r (live r member))

/-- A coroutine that touches neither events nor hands. -/
theorem holds_carried {m : Proc α} {es : List Effect} {ws : List Await} {E : Prop}
    (within : Within m es ws E) (listed : es ⊆ movers) (hand : Hand p rs w) :
    absorbing.Holds p (fun _ w' => Hand p rs w') m w := by
  refine RelyGuarantee.holds_keeps (Hand p rs) ?_ ?_ within hand
  · intro c t member before
    exact ⟨carrier_guar (listed member) p t, carrier_hand (listed member) before⟩
  · intro r a t t' t'' _ before unharmed settled replied
    exact ⟨reply_guar replied, reply_hand before unharmed settled replied⟩

/-- Such a coroutine, in between steps. -/
theorem holds_settled {m : Proc α} {es : List Effect} {ws : List Await} {E : Prop}
    (within : Within m es ws E) (listed : es ⊆ movers) (hand : Hand p [] w)
    (settled : Settled w) :
    absorbing.Holds p (fun _ w' => Hand p [] w' ∧ Settled w') m w := by
  refine RelyGuarantee.holds_keeps (fun w' => Hand p [] w' ∧ Settled w') ?_ ?_ within
    ⟨hand, settled⟩
  · intro c t member before
    refine ⟨carrier_guar (listed member) p t, carrier_hand (listed member) before.1, ?_⟩
    exact before.2.kept (bystander_exec (movers_subset (listed member)) t)
  · intro r a t t' t'' _ before unharmed settled replied
    refine ⟨reply_guar replied, reply_hand before.1 unharmed settled replied, ?_⟩
    exact settled.kept (EventsKept.of_store (reply_store replied))

/-- A transition of an mRID under which nothing that has ended is stored. -/
theorem holds_transition {mrid : Mrid} (st : EventState) (hand : Hand p rs w)
    (target : ∀ q, w.store.get? mrid = some q → w.Live q ∧ q ∉ rs) :
    absorbing.Holds p (fun _ w' => Hand p rs w') (transition mrid st) w := by
  refine holds_get ?_
  split
  · trivial
  · rename_i q found
    obtain ⟨live, free⟩ := target q found
    have other : ∀ r ∈ rs, (World.exec (.setState q st) w).record r = w.record r := by
      intro r member
      refine record_setState_ne w st ?_
      rintro rfl
      exact free member
    refine ⟨⟨Stays.setState live (hand.keyed _ _ found).1 st, fun _ _ => rfl⟩, ?_⟩
    refine ⟨hand.current, exec_keyed _ w hand.keyed, hand.held, ?_, ?_⟩
    · intro r member
      unfold Core.Live
      rw [other r member]
      exact hand.live r member
    · intro r member
      unfold Core.Sole
      rw [other r member]
      exact hand.sole r member

/-- Taking records in hand, or letting go of them. -/
theorem holds_hold {β : Type} {Q : β → World → Prop} {k : Unit → Proc β} {refs : List Ref}
    (hand : Hand p [] w) (live : ∀ r ∈ refs, w.Live r) (sole : ∀ r ∈ refs, w.Sole r)
    (rest : ∀ w', Hand p refs w' → (∀ r, w.Live r → w'.Live r) → (∀ r, w.Sole r → w'.Sole r) →
      absorbing.Holds p Q (k ()) w') :
    absorbing.Holds p Q (perform (.hold refs) >>= k) w := by
  have kept : EventsKept w (World.exec (.hold refs) w) := bystander_exec (by simp [Cmd.effect]) w
  refine holds_perform ⟨Stays.of_kept kept (exec_cancelled _ w), ?_⟩ (rest _ ?_ ?_ ?_)
  · intro q other
    exact Function.update_of_ne (by rwa [hand.current]) _ _
  · refine ⟨hand.current, kept.keyed hand.keyed, ?_, ?_, ?_⟩
    · intro r member
      change r ∈ Function.update w.held w.current refs p
      rwa [hand.current, Function.update_self]
    · exact fun r member => (kept.live_iff r).mpr (live r member)
    · exact fun r member => (kept.sole_iff r).mpr (sole r member)
  · exact fun r => (kept.live_iff r).mpr
  · exact fun r => (kept.sole_iff r).mpr

end Pieces

/-! ### Every task -/

/-- A coroutine that keeps the guarantee, and ends with the task in order. -/
def Absorbs {α : Type} (m : Proc α) : Prop :=
  ∀ p w, Hand p [] w → absorbing.Holds p (fun _ w' => Hand p [] w') m w

theorem absorbs_apply (r : Ref) : Absorbs (applyAndRespond r) :=
  fun _ _ hand => holds_carried (applyAndRespond_within r) (by decide) hand

theorem absorbs_child (r : Ref) (d : Href) : Absorbs (dispatchAndReport r d) :=
  fun _ _ hand => holds_carried (dispatchAndReport_within r d) (by decide) hand

theorem absorbs_respond (code : ResponseCode) (derc : Dercontrol) (lfdi : Lfdi) :
    Absorbs (respondFor derc code lfdi) :=
  fun _ _ hand => holds_carried (respondFor_within derc code lfdi) (by decide) hand

theorem absorbs_composes : Composes carriers Absorbs where
  carries := by decide
  bind := fun first rest p w hand =>
    RelyGuarantee.holds_bind ((first p w hand).mono fun a t hand' => rest a p t hand')
  get := fun rest p w hand => holds_get (rest w p w hand)
  quiet := fun within _ _ hand => holds_carried within (by decide) hand
  respond := fun _ _ => absorbs_respond _
  fallback := fun r clear _ _ hand =>
    holds_carried (applyDdercFallback_within r clear) (by decide) hand
  initial := fun p _ _ hand => holds_carried (applyInitialDderc_within p) (by decide) hand

section Transitions

variable {p : Pid} {w : World} {r : Ref}

/-- What is stored under an mRID is the only record there. -/
theorem sole_of_stored {mrid : Mrid} (keyed : w.store.Keyed)
    (stored : w.store.get? mrid = some r) : w.Sole r := by
  intro q found
  change w.store.get? (w.store.object r).mrid = some q at found
  rw [(keyed mrid r stored).2, stored] at found
  exact (Option.some.inj found).symm

/-- The end of a supersession, of a record that is known not to have ended. -/
theorem holds_supersedeIfFully (map : ProgramDevices) (hand : Hand p [] w) (live : w.Live r)
    (sole : w.Sole r) :
    absorbing.Holds p (fun _ w' => Hand p [] w') (supersedeIfFully map r) w := by
  refine holds_get ?_
  unfold onlyIf
  dsimp only
  split
  · refine RelyGuarantee.holds_bind ((holds_transition .superseded hand ?_).mono ?_)
    · intro q found
      rw [sole q found]
      exact ⟨live, List.not_mem_nil⟩
    · intro _ w' hand'
      have tail : Within (perform (.cancelTimers (w.record r).mrid) >>= fun _ =>
          onlyIf ((w.record r).state = .active) (applyDdercFallback r false))
          (.cancelTimers :: fallbackEffects) [.gather] := by
        refine Within.bind (Within.perform (by simp [Cmd.effect])) fun _ => ?_
        refine Within.onlyIf fun _ => ?_
        exact (applyDdercFallback_within r false).mono (by decide) (by decide)
      exact holds_carried tail (by decide) hand'
  · exact hand

theorem absorbs_supersede (map : ProgramDevices) (result : SupersessionResult) :
    Absorbs (supersede map result) := by
  intro p w hand
  refine holds_get ?_
  split
  · rename_i r by_ found _
    dsimp only
    split
    · exact hand
    · rename_i running
      split
      · exact hand
      · have live : w.Live r := by
          unfold Core.Live
          simpa using running
        have listed : (Cmd.addSuperseded r result.affectedDevices).effect ∈ movers := by
          simp [Cmd.effect]
        have kept := bystander_exec (movers_subset listed) w
        refine holds_perform (carrier_guar listed p w) ?_
        refine holds_hold (carrier_hand listed hand) ?_ ?_ fun w₁ hand₁ _ _ => ?_
        · intro q member
          rw [List.mem_singleton.mp member]
          exact (kept.live_iff r).mpr live
        · intro q member
          rw [List.mem_singleton.mp member]
          exact (kept.sole_iff r).mpr (sole_of_stored hand.keyed found)
        -- Across the responses the record stays in hand.
        refine RelyGuarantee.holds_bind ((holds_carried
          (postResponseForDevices_within _ _ _) (by decide) hand₁).mono fun _ w₂ hand₂ => ?_)
        refine holds_hold hand₂.empty (by simp) (by simp) fun w₃ hand₃ live₃ sole₃ => ?_
        have live' := live₃ r (hand₂.live r (by simp))
        have sole' := sole₃ r (hand₂.sole r (by simp))
        unfold onlyIf
        split
        · have listed' : (Cmd.addSupersededModes r result.affectedDevices
              result.affectedModes).effect ∈ movers := by simp [Cmd.effect]
          have kept' := bystander_exec (movers_subset listed') w₃
          refine holds_perform (carrier_guar listed' p w₃) ?_
          exact holds_supersedeIfFully map (carrier_hand listed' hand₃)
            ((kept'.live_iff r).mpr live') ((kept'.sole_iff r).mpr sole')
        · exact holds_supersedeIfFully map hand₃ live' sole'
  · exact hand

/-- Cancelling a record that has not ended, with others in hand. -/
theorem holds_handleCancellation {rs : List Ref} (hand : Hand p rs w) (live : w.Live r)
    (sole : w.Sole r) (free : r ∉ rs) :
    absorbing.Holds p (fun _ w' => Hand p rs w') (handleCancellation r) w := by
  refine holds_get (RelyGuarantee.holds_bind ((holds_transition .cancelled hand ?_).mono ?_))
  · intro q found
    rw [sole q found]
    exact ⟨live, free⟩
  · exact fun _ w' hand' => holds_carried (cancellationTail_within r _) (by decide) hand'

/-- Rule p), over records none of which has ended. -/
theorem holds_cancelRemoved (now : Int) (rs : List Ref) (distinct : rs.Nodup)
    (hand : Hand p [] w) (live : ∀ r ∈ rs, w.Live r) (sole : ∀ r ∈ rs, w.Sole r) :
    absorbing.Holds p (fun _ w' => Hand p [] w') (cancelRemoved now rs) w := by
  induction rs generalizing w with
  | nil => exact hand
  | cons r rest ih =>
      obtain ⟨free, distinct⟩ := List.nodup_cons.mp distinct
      have live' : ∀ q ∈ rest, w.Live q := fun q member => live q (List.mem_cons_of_mem r member)
      have sole' : ∀ q ∈ rest, w.Sole q := fun q member => sole q (List.mem_cons_of_mem r member)
      refine holds_get ?_
      split
      · exact ih distinct hand live' sole'
      · refine holds_hold hand live' sole' fun w₁ hand₁ live₁ sole₁ => ?_
        refine RelyGuarantee.holds_bind ((holds_handleCancellation hand₁
          (live₁ r (live r List.mem_cons_self)) (sole₁ r (sole r List.mem_cons_self)) free).mono
            fun _ w₂ hand₂ => ?_)
        refine holds_hold hand₂.empty (by simp) (by simp) fun w₃ hand₃ live₃ sole₃ => ?_
        refine holds_get ?_
        dsimp only
        split
        · exact hand₃
        · exact ih distinct hand₃ (fun q member => live₃ q (hand₂.live q member))
            (fun q member => sole₃ q (hand₂.sole q member))

theorem sole_of_listed (keyed : w.store.Keyed) (listed : r ∈ w.store.allActiveStates) :
    w.Live r ∧ w.Sole r := by
  obtain ⟨⟨mrid, stored⟩, live⟩ := EventStore.mem_allActiveStates.mp listed
  exact ⟨live, sole_of_stored keyed stored⟩

end Transitions

theorem absorbs_reconcile (ps : DerProgramState) (epoch : Nat) (now : Int) :
    Absorbs (reconcileServed ps epoch now) := by
  intro p w hand
  refine holds_get ?_
  dsimp only
  split
  · refine holds_cancelRemoved now _ ((nodup_allActiveStates hand.keyed).filter _) hand ?_ ?_
    · exact fun r member => (sole_of_listed hand.keyed (List.mem_filter.mp member).1).1
    · exact fun r member => (sole_of_listed hand.keyed (List.mem_filter.mp member).1).2
  · exact hand

theorem absorbs_knownControl {p : Pid} {w : World} {r : Ref} {derc : Dercontrol}
    (hand : Hand p [] w) (stored : w.store.get? derc.mrid = some r) :
    absorbing.Holds p (fun _ w' => Hand p [] w') (knownControl r derc) w := by
  have listed : (Cmd.refresh r derc ((derc.eventStatus.bind (·.dateTime)).getD 0)).effect ∈
      movers := by simp [Cmd.effect]
  have kept := bystander_exec (movers_subset listed) w
  refine holds_perform (carrier_guar listed p w) (holds_get ?_)
  have hand' := carrier_hand listed hand
  split
  · rename_i cancelled
    refine RelyGuarantee.holds_bind ((holds_handleCancellation hand' cancelled.2
      ((kept.sole_iff r).mpr (sole_of_stored hand.keyed stored)) List.not_mem_nil).mono ?_)
    exact fun _ w' hand'' => absorbs_composes.stopIfClosed p w' hand''
  · exact hand'

theorem absorbs_storeNew {p : Pid} {w : World} {q : Href} {derc : Dercontrol}
    {record : EventRecord} (hand : Hand p [] w) (absent : w.store.get? record.mrid = none) :
    absorbing.Holds p (fun _ w' => Hand p [] w') (storeNew q derc record) w := by
  have stored : ∀ st, Hand p [] (World.exec (.upsert { record with state := st }) w) := fun st =>
    ⟨hand.current, exec_keyed _ w hand.keyed, by simp, by simp, by simp⟩
  refine holds_get ?_
  dsimp only
  split
  · refine holds_perform ⟨Stays.upsert absent, fun _ _ => rfl⟩ ?_
    refine absorbs_composes.bind ?_ (fun _ => absorbs_composes.stopIfClosed) p _ (stored _)
    exact absorbs_composes.postResponse (absorbs_respond _) _ _ _
  · refine holds_perform ⟨Stays.upsert absent, fun _ _ => rfl⟩ ?_
    refine absorbs_composes.bind (absorbs_composes.perform (by simp [Cmd.effect])) ?_ p _
      (stored record.state)
    intro _
    refine absorbs_composes.bind ?_ fun _ => absorbs_composes.stopIfClosed
    refine absorbs_composes.introduce _ ?_
    exact absorbs_composes.handleLateDiscovery absorbs_supersede (absorbs_apply _)

theorem absorbs_processControl (primacy : Nat) (now : Int) (derc : Dercontrol) (q : Href) :
    Absorbs (processControl q primacy now derc) := by
  intro p w hand
  refine RelyGuarantee.holds_bind ((holds_carried (effectiveOffsets_within q derc) (by decide)
    hand).mono fun offsets w' hand' => ?_)
  refine holds_get ?_
  split
  · rename_i r stored
    exact absorbs_knownControl hand' stored
  · rename_i absent
    refine holds_get ?_
    split
    · exact hand'
    · split
      · split
        · exact hand'
        · refine absorbs_composes.bind ?_ (fun _ => absorbs_composes.stopIfClosed) p _ hand'
          exact absorbs_composes.postResponse (absorbs_respond _) _ _ _
      · exact absorbs_storeNew hand' absent

theorem absorbs_finishPoll (q : Href) (now : Int) : Absorbs (finishPoll q now) := by
  refine absorbs_composes.bind (absorbs_composes.runSupersession absorbs_supersede) fun _ => ?_
  refine absorbs_composes.unlessClosed ?_
  intro p w hand
  refine holds_perform ⟨Stays.prune now, fun _ _ => rfl⟩ ?_
  have first : Hand p [] (World.exec (.pruneStore now) w) :=
    ⟨hand.current, exec_keyed _ w hand.keyed, by simp, by simp, by simp⟩
  -- The other two prunings leave the store alone.
  have second := kept_hand (c := .pruneOffsets now) (EventsKept.of_store rfl) (by simp [Cmd.effect])
    first
  have third := kept_hand (c := .pruneResponses now) (EventsKept.of_store rfl)
    (by simp [Cmd.effect]) second
  refine holds_perform (kept_guar (EventsKept.of_store rfl) (by simp [Cmd.effect]) p) ?_
  refine holds_perform (kept_guar (EventsKept.of_store rfl) (by simp [Cmd.effect]) p) ?_
  exact absorbs_composes.initial q p _ third

theorem absorbs_cancelProgram (q : Href) : Absorbs (cancelProgram q) := by
  intro p w hand
  refine holds_get ((RelyGuarantee.holds_forEach (fun (rest : List Ref) (w' : World) =>
    Hand p [] w' ∧ rest.Nodup ∧ (∀ r ∈ rest, w'.Live r) ∧
      ∀ r ∈ rest, w'.store.get? (w.record r).mrid = some r) ?_ ?_).mono fun _ _ kept => kept.1)
  · rintro r rest w₁ ⟨hand₁, distinct, live, stored⟩
    obtain ⟨free, distinct⟩ := List.nodup_cons.mp distinct
    refine RelyGuarantee.holds_bind (holds_get ?_)
    rw [stored r List.mem_cons_self]
    have own := stored r List.mem_cons_self
    have live₁ := live r List.mem_cons_self
    have timers := bystander_exec (c := .cancelTimers (w.record r).mrid) (by simp [Cmd.effect])
      (World.exec (.setState r .cancelled) w₁)
    have hand₂ : Hand p [] (World.exec (.setState r .cancelled) w₁) :=
      ⟨hand₁.current, exec_keyed _ w₁ hand₁.keyed, by simp, by simp, by simp⟩
    refine ⟨⟨Stays.setState live₁ (hand₁.keyed _ _ own).1 _, fun _ _ => rfl⟩, ?_⟩
    refine ⟨kept_guar timers (by simp [Cmd.effect]) p, ?_⟩
    refine ⟨kept_hand timers (by simp [Cmd.effect]) hand₂, distinct, ?_, ?_⟩
    · intro r' member
      rw [timers.live_iff]
      unfold Core.Live
      rw [record_setState_ne w₁ _ (by rintro rfl; exact free member)]
      exact live r' (List.mem_cons_of_mem r member)
    · intro r' member
      rw [timers.get?]
      exact stored r' (List.mem_cons_of_mem r member)
  · refine ⟨hand, (nodup_allActiveStates hand.keyed).filter _, ?_, ?_⟩
    · exact fun r member => (sole_of_listed hand.keyed (List.mem_filter.mp member).1).1
    · intro r member
      obtain ⟨⟨mrid, found⟩, -⟩ :=
        EventStore.mem_allActiveStates.mp (List.mem_filter.mp member).1
      change w.store.get? (w.store.object r).mrid = some r
      rw [(hand.keyed mrid r found).2, found]

/-- A timer's task. It starts with nobody running, so the record it was made for
is the stored one unless it has ended. -/
theorem holds_fireTimer {p : Pid} {w : World} (callback : Callback) (r : Ref)
    (hand : Hand p [] w) (settled : Settled w) :
    absorbing.Holds p (fun _ w' => Hand p [] w') (fireTimer callback r) w := by
  have target : ∀ {w' : World}, Settled w' → w'.Live r →
      ∀ q, w'.store.get? (w'.record r).mrid = some q → w'.Live q ∧ q ∉ ([] : List Ref) := by
    intro w' settled' live q found
    rw [settled'.sole r live q found]
    exact ⟨live, List.not_mem_nil⟩
  refine holds_get ?_
  split
  · exact hand
  · split
    · refine RelyGuarantee.holds_bind ((holds_settled awaitStateReady_within (by decide) hand
        settled).mono fun _ w' after => holds_get ?_)
      split
      · exact after.1
      · rename_i scheduled
        have live : w'.Live r := by
          unfold Core.Live
          rw [not_not.mp scheduled]
          rfl
        refine RelyGuarantee.holds_bind ((holds_transition .active after.1
          (target after.2 live)).mono fun _ w'' hand'' => holds_get ?_)
        split
        · exact absorbs_composes.optOutEvent r p w'' hand''
        · exact absorbs_composes.startEvent absorbs_supersede (absorbs_apply r) p w'' hand''
    · refine RelyGuarantee.holds_bind ((holds_settled awaitStateReady_within (by decide) hand
        settled).mono fun _ w' after => holds_get ?_)
      split
      · exact after.1
      · rename_i running
        have live : w'.Live r := by
          unfold Core.Live
          rw [not_not.mp running]
          rfl
        refine RelyGuarantee.holds_bind ((holds_transition .completed after.1
          (target after.2 live)).mono fun _ w'' hand'' => ?_)
        refine absorbs_composes.bind ?_ (fun _ => absorbs_composes.fallback r false) p w'' hand''
        exact absorbs_composes.postStartedDeviceLifecycle (absorbs_respond _) r
    · exact absorbs_composes.fallback r false p w hand

theorem absorbing_jobs : absorbing.JobsSafe := by
  intro p j w w' settled begun
  obtain ⟨current, held, cancelled⟩ := begins_task begun
  have kept : EventsKept w w' := EventsKept.of_store (begins_store begun)
  have hand : Hand p [] w' := ⟨current, kept.keyed settled.keyed, by simp, by simp, by simp⟩
  refine ⟨⟨Stays.of_kept kept ?_, ?_⟩, ?_⟩
  · intro q gone
    rwa [cancelled]
  · intro q _
    rw [held]
  · suffices ordered : absorbing.Holds p (fun _ w' => Hand p [] w') j.body w' from
      ordered.mono fun _ _ _ => trivial
    cases j with
    | processControls q room =>
        exact absorbs_composes.processControls absorbs_processControl absorbs_reconcile
          (absorbs_finishPoll q) p w' hand
    | cancelProgram q => exact absorbs_cancelProgram q p w' hand
    | enterCommsLoss => exact absorbs_composes.enterCommsLoss p w' hand
    | shutdown => exact absorbs_composes.perform (by decide) p w' hand
    | timer callback r => exact holds_fireTimer callback r hand (settled.kept kept)
    | dispatchAndReport r d => exact absorbs_child r d p w' hand

theorem Core.Fresh.settled {w : Core} (fresh : w.Fresh) : Settled (start w).state := by
  have unmade : ∀ r, ¬ (start w).state.Live r := by
    intro r
    unfold Core.Live Core.record
    change ¬ (w.store.object r).state.isTerminal = false
    rw [fresh.store]
    change ¬ EventRecord.blank.state.isTerminal = false
    decide
  exact ⟨fresh.keyed, fun r _ => unmade r, fun r live => absurd live (unmade r)⟩

/-- In every run none of whose steps ends a record that another live task has in
hand, and none of whose steps stores an mRID while another record made for it
has not ended: a stored record that has ended keeps its state. -/
theorem terminal_absorbing {w : Core} (fresh : w.Fresh) {b c : Config ProcSig}
    (before : processor.Run Careful (start w) b) (after : processor.Run Careful b c) {r : Ref}
    (stored : b.state.store.Stored r) (ended : (b.state.record r).state.isTerminal = true) :
    (c.state.record r).state = (b.state.record r).state := by
  obtain ⟨safe, parked⟩ := RelyGuarantee.safe_of_run absorbing_jobs
    (start_safe fresh.settled) (start_parked w) before
  have stays : Stays b.state c.state := by
    refine RelyGuarantee.related_of_run absorbing_jobs Stays.refl Stays.trans (fun kept => kept.1)
      ?_ safe parked after
    rintro e w w' ⟨⟩
    refine Stays.of_kept (EventsKept.of_store ?_) fun q gone => ?_
    · cases e <;> rfl
    · cases e <;> exact gone
  obtain ⟨mrid, found⟩ := stored
  refine stays.ended r (safe.1.keyed mrid r found).1 ?_
  unfold Core.Live
  rw [ended]
  decide

/-! ### An event that completes while the task that superseded it is cancelled -/

section Gentle

variable {n : Nat} {b c : Config ProcSig}

/-- The first half of `Careful`, as far as the tasks below `n` can tell. -/
def HandsKept (n : Nat) (w : World) (l : Label processor) (w' : World) : Prop :=
  ∀ p ∈ l.pid, p < n ∧ ∀ q : Nat, q < n → q ≠ p → q ∉ w'.cancelled →
    ∀ r ∈ w.held q, (w.record r).state.isTerminal = false →
      (w'.record r).state.isTerminal = false

/-- And the second, as far as the records that are made can. -/
def StoresApart (w w' : World) : Prop :=
  ∀ q : Nat, q < w'.store.next → w.store.next ≤ q → ∀ r : Nat, r < w'.store.next →
    (w'.record r).state.isTerminal = false → (w'.record r).mrid = (w'.record q).mrid → r = q

instance (n : Nat) (w : World) (l : Label processor) (w' : World) :
    Decidable (HandsKept n w l w') := by
  unfold HandsKept
  infer_instance

instance (w w' : World) : Decidable (StoresApart w w') := by
  unfold StoresApart
  infer_instance

def Gentle (n : Nat) (w : World) (l : Label processor) (w' : World) : Prop :=
  HandsKept n w l w' ∧ StoresApart w w'

instance (n : Nat) (w : World) (l : Label processor) (w' : World) : Decidable (Gentle n w l w') :=
  inferInstanceAs (Decidable (_ ∧ _))

/-- No task from `n` on has anything in hand. -/
def HandsBelow (n : Nat) (w : World) : Prop := ∀ q, n ≤ q → w.held q = []

theorem careful_of_gentle {l : Label processor} (safe : absorbing.Safe b)
    (below : HandsBelow n b.state) (stepped : processor.step l b = some c)
    (gentle : Gentle n b.state l c.state) :
    Careful b.state l c.state ∧ HandsBelow n c.state := by
  obtain ⟨hands, stores⟩ := gentle
  have task : (∀ q, n ≤ q → c.state.held q = []) ∧
      ∀ r, c.state.store.next ≤ r → ¬ c.state.Live r := by
    cases owner : l.pid with
    | some p =>
        obtain ⟨stays, kept⟩ := RelyGuarantee.step_guar absorbing_jobs safe stepped owner
        refine ⟨fun q far => ?_, fun r unmade => ?_⟩
        · have small := (hands p owner).1
          rw [kept q fun same => absurd (same ▸ far) (Nat.not_le.mpr small), below q far]
        · unfold Core.Live
          rw [stays.unmade r unmade]
          exact safe.1.unmade r (stays.next.trans unmade)
    | none =>
        cases l with
        | ext e =>
            obtain rfl : { b with state := { b.state with toCore := e.apply b.state.toCore } } = c :=
              Option.some.inj stepped
            refine ⟨below, ?_⟩
            cases e <;> exact safe.1.unmade
        | _ => cases owner
  refine ⟨⟨fun p owner q other alive r member live => ?_, fun q new made r live same => ?_⟩, task.1⟩
  · obtain ⟨_, kept⟩ := hands p owner
    by_cases small : q < n
    · exact kept q small other alive r member live
    · rw [below q (Nat.le_of_not_lt small)] at member
      cases member
  · refine stores q made new r ?_ live same
    by_contra unmade
    exact task.2 r (Nat.le_of_not_lt unmade) live

theorem run_of_gentle (safe : absorbing.Safe b) (parked : RelyGuarantee.Parked b)
    (below : HandsBelow n b.state) (run : processor.Run (Gentle n) b c) :
    processor.Run Careful b c ∧ HandsBelow n c.state := by
  induction run with
  | refl => exact ⟨.refl _, below⟩
  | step l _ stepped met ih =>
      obtain ⟨before, still⟩ := ih
      have there := RelyGuarantee.safe_of_run absorbing_jobs safe parked before
      obtain ⟨careful, after⟩ := careful_of_gentle there.1 still stepped met
      exact ⟨.step l before stepped careful, after⟩

end Gentle

/-- Two programs on one device; the second one's event, which starts at 10, wins. -/
def revokedCore (status : Option EventStatus) : Core :=
  plainCore
    [plainProgram "/derp/1" 5 [plainControl 1 0 20 .opModFixedW],
      plainProgram "/derp/0" 1
        [{ plainControl 2 10 1000 .opModFixedW with eventStatus := status }]]
    [("/derp/1", "/edev/1"), ("/derp/0", "/edev/1")]

/-- The first event runs; the second one starts, and while its SUPERSEDED response for the first is
on its way the server cancels it; the first one completes. -/
def revokedRun : List (Label processor) :=
  let go := fun pid => Label.resume pid Request.success
  [.start 1 (.processControls "/derp/1" 0), go 1, .start 2 (.dispatchAndReport 0 "/edev/1"), go 2,
    go 2, go 1, .start 4 (.processControls "/derp/0" 0), go 4, .ext (.clocks (fun _ => 10) 10),
    .start 5 (.timer .activation 1),
    .ext (.discovered (revokedCore (some ⟨2, none⟩)).discovered (fun _ => 0) true),
    .start 6 (.processControls "/derp/0" 0), .ext (.clocks (fun _ => 20) 20),
    .start 3 (.timer .completion 0)]

def revokedConfig : Config ProcSig :=
  (processor.exec (start (revokedCore none)) revokedRun).getD (start (revokedCore none))

/-- Both responses have landed. -/
def revokedLater : Config ProcSig :=
  (processor.exec revokedConfig [.resume 6 Request.success, .resume 3 Request.success]).getD
    revokedConfig

/-- Task 5 has the record in hand, but it is cancelled: the record stays COMPLETED. -/
theorem revokedConfig_absorbed :
    processor.Run Careful (start (revokedCore none)) revokedConfig ∧
      processor.Run Careful revokedConfig revokedLater ∧
      revokedConfig.state.held 5 = [0] ∧ 5 ∈ revokedConfig.state.cancelled ∧
      revokedConfig.state.store.Stored 0 ∧ (revokedConfig.state.record 0).state = .completed ∧
      (revokedLater.state.record 0).state = .completed := by
  have first : processor.Run (Gentle 8) (start (revokedCore none)) revokedConfig :=
    processor.run_of_meeting revokedRun rfl
  have later : processor.Run (Gentle 8) revokedConfig revokedLater :=
    processor.run_of_meeting [.resume 6 Request.success, .resume 3 Request.success] rfl
  have fresh : (revokedCore none).Fresh := plainCore_fresh _ _
  obtain ⟨before, below⟩ := run_of_gentle (start_safe fresh.settled) (start_parked _)
    (fun _ _ => rfl) first
  obtain ⟨safe, parked⟩ := RelyGuarantee.safe_of_run absorbing_jobs (start_safe fresh.settled)
    (start_parked _) before
  have after := (run_of_gentle safe parked below later).1
  have stored : revokedConfig.state.store.Stored 0 := ⟨1, by decide⟩
  refine ⟨before, after, by decide, by decide, stored, by decide, ?_⟩
  rw [terminal_absorbing fresh before after stored (by decide)]
  decide

/-! ### An event that ends while its supersession is being reported -/

/-- Two programs on one device; the first one's event ends at 20, and the other
one's event wins against it. -/
def contestedCore : Core :=
  plainCore
    [plainProgram "/derp/1" 5 [plainControl 1 0 20 .opModFixedW],
      plainProgram "/derp/0" 1 [plainControl 2 0 1000 .opModFixedW]]
    [("/derp/1", "/edev/1"), ("/derp/0", "/edev/1")]

/-- The first event runs, the second one is met at time 10 and supersedes it;
while the SUPERSEDED response is on its way the first event completes. -/
def contestedRun : List (Label processor) :=
  let go := fun pid => Label.resume pid Request.success
  [.start 1 (.processControls "/derp/1" 0), go 1, .start 2 (.dispatchAndReport 0 "/edev/1"), go 2,
    go 2, go 1, .ext (.clocks (fun _ => 10) 10), .start 4 (.processControls "/derp/0" 0), go 4,
    .ext (.clocks (fun _ => 20) 20), .start 3 (.timer .completion 0)]

def contestedConfig : Config ProcSig :=
  (processor.exec (start contestedCore) contestedRun).getD (start contestedCore)

/-- The response has landed. -/
def contestedLater : Config ProcSig :=
  (processor.exec contestedConfig [.resume 4 Request.success]).getD contestedConfig

/-- The completed event becomes SUPERSEDED. -/
theorem contested_revives :
    processor.Run (fun _ _ _ => True) (start contestedCore) contestedConfig ∧
      processor.Run (fun _ _ _ => True) contestedConfig contestedLater ∧
      contestedConfig.state.store.get? 1 = some 0 ∧ contestedLater.state.store.get? 1 = some 0 ∧
      (contestedConfig.state.record 0).state = .completed ∧
      (contestedLater.state.record 0).state = .superseded ∧ contestedConfig.state.held 4 = [0] := by
  refine ⟨processor.run_exec contestedRun (by decide), processor.run_exec _ (by decide), ?_⟩
  decide

end Py20305
