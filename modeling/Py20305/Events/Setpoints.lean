import Py20305.Events.Fallback

/-!
Who answers for a setpoint.

A mode of a device that an event wrote last is held by an event that was registered
for it there when it was written, unless one of these was superseded on the device
for every mode supersession compares. The last event to end releases a mode; the
one that wrote it need not be the one that does. `setpoints_answered` says so of
every state between tasks that run one after the other, with every dispatch
succeeding, known devices, an unchanged mapping, programs that share a device
writing it through the same targets, and no remembered default of a program whose
primacy has risen since.

It follows that an event that has ended is the last writer of a mode only where
another one holds it, or where the device was left to the events that took it over.
Both happen (`setpoints_orphaned`), and so do orphans where one of the conditions
fails. What becomes of a device that was left to others is not followed here.
-/

namespace Py20305

open Coroutine Co

/-! ### The invariant -/

/-- What an mRID stands for: the program that serves it and the modes it sets. -/
structure Meaning where
  program : Mrid → Href
  base : Mrid → DercontrolBase

/-- A control of program `p` is what its mRID stands for. -/
def Meaning.Fits (M : Meaning) (p : Href) (c : Dercontrol) : Prop :=
  M.program c.mrid = p ∧ M.base c.mrid = c.base

/-- What is written for device `d` lands on `t`. -/
def Core.LandsOn (w : Core) (d : Href) (t : Target) : Prop :=
  ∃ p, d ∈ w.devicesOf p ∧ t ∈ w.reachOf p [d]

/-- On device `d` every mode of event `q` that supersession compares was taken
over. -/
def Core.TakenOver (w : Core) (q : Mrid) (d : Href) : Prop :=
  ∃ r, (w.record r).mrid = q ∧ d ∈ (w.record r).supersededDevices ∧
    comparedModeKeys (w.record r).derc.base ⊆ (w.record r).modesTaken d

/-- Another event than `x` was registered for the mode when it was written and
still is. -/
def World.HeldByOther (w : World) (x : Mrid) (t : Target) (m : Mode) (e : Issued) : Prop :=
  ∃ q d, q ≠ x ∧ w.LandsOn d t ∧ m ∈ e.at_.modes.modesOf d q ∧ m ∈ w.modes.modesOf d q

/-- Event `q` was registered on `d` when each mode it holds there was last
written. -/
def World.Written (w : World) (d : Href) (q : Mrid) : Prop :=
  ∀ t m, w.LandsOn d t → m ∈ w.modes.modesOf d q →
    ∃ e, w.lastWrite t m = some e ∧ m ∈ e.at_.modes.modesOf d q

/-- Someone answers for each mode an event wrote last. -/
def World.InCharge (w : World) : Prop :=
  ∀ t m e x, m.isReleasable = true → w.lastWrite t m = some e →
    e.call.writes t m = some (.event x) → ∃ q d, w.LandsOn d t ∧ m ∈ e.at_.modes.modesOf d q ∧
      (m ∈ w.modes.modesOf d q ∨ w.TakenOver q d)

/-- No default is held back: none was applied by a program at a better primacy
than it has now. -/
def Core.Remembered (w : Core) : Prop :=
  ∀ lfdi p entry, w.dderc.applied.get? (lfdi, p) = some entry →
    ∀ ps, w.discovered.derPrograms.get? p = some ps → ps.primacy ≤ entry.primacy

/-- What the argument rests on besides who is in charge. `pending` are the
registrations whose control is still to be sent, `rs` records that were made. -/
structure Ordered (M : Meaning) (pending : Mrid → Href → Prop) (rs : List Ref) (w : World) :
    Prop where
  site : w.Site
  keyed : w.store.Keyed
  meant : ∀ q < w.store.next, (w.record q).programHref = M.program (w.record q).mrid ∧
    (w.record q).derc.base = M.base (w.record q).mrid
  unmade : ∀ q, w.store.next ≤ q →
    (w.record q).supersededDevices = [] ∧ (w.record q).state.isTerminal = true
  served : ∀ p ps, w.discovered.derPrograms.get? p = some ps → ∀ c ∈ ps.derControls, M.Fits p c
  registered : ∀ d q, ∀ m ∈ w.modes.modesOf d q,
    d ∈ w.devicesOf (M.program q) ∧ m ∈ getActiveModeNames (M.base q)
  written : ∀ d q, ¬ pending q d → w.Written d q
  remembered : w.Remembered
  here : ∀ q ∈ rs, q < w.store.next

/-- The invariant within a task. -/
structure Tended (M : Meaning) (pending : Mrid → Href → Prop) (rs : List Ref) (w : World) :
    Prop where
  ordered : Ordered M pending rs w
  inCharge : w.InCharge

/-- The invariant between two dispatches: nothing is pending and no child waits. -/
structure Tidy (M : Meaning) (rs : List Ref) (w : World) : Prop where
  tended : Tended M (fun _ _ => False) rs w
  idle : Idle w

/-- The site is what the mapping, the groups and the settings make it. -/
theorem Core.Site.of_same {w w' : Core} (site : w.Site) (discovered : w'.discovered = w.discovered)
    (groups : w'.groupLookup = w.groupLookup) (settings : w'.settings = w.settings) : w'.Site := by
  have devices : ∀ p, w'.devicesOf p = w.devicesOf p := by
    unfold Core.devicesOf
    exact fun p => by rw [discovered]
  have reach : ∀ p ds, w'.reachOf p ds = w.reachOf p ds := by
    unfold Core.reachOf Core.groupLocalLfdis
    exact fun p ds => by rw [groups, settings]
  refine ⟨fun p d mapped => ?_, fun p q d mapped mapped' => ?_, discovered ▸ site.named⟩
  · rw [devices] at mapped
    unfold Core.deviceLfdi
    rw [discovered]
    exact site.known p d mapped
  · rw [devices] at mapped mapped'
    rw [reach, reach]
    exact site.agree p q d mapped mapped'

/-! ### What leaves it alone -/

/-- A record that is what it was, taken over on no fewer devices and modes. -/
structure SameEvent (a b : EventRecord) : Prop where
  mrid : b.mrid = a.mrid
  program : b.programHref = a.programHref
  base : b.derc.base = a.derc.base
  superseded : a.supersededDevices ⊆ b.supersededDevices
  taken : ∀ d, a.modesTaken d ⊆ b.modesTaken d

theorem SameEvent.refl (a : EventRecord) : SameEvent a a :=
  ⟨rfl, rfl, rfl, fun _ h => h, fun _ _ h => h⟩

/-- The devices, the registrations and the log are as they were, and so are the
events, but for what was taken over from them. -/
structure Unmoved (w w' : World) : Prop where
  settings : w'.settings = w.settings
  discovered : w'.discovered = w.discovered
  groups : w'.groupLookup = w.groupLookup
  modes : w'.modes = w.modes
  issued : w'.issued = w.issued
  next : w'.store.next = w.store.next
  entries : ∀ mrid r, w'.store.get? mrid = some r → w.store.get? mrid = some r
  remembered : ∀ key entry, w'.dderc.applied.get? key = some entry →
    w.dderc.applied.get? key = some entry
  events : ∀ r, SameEvent (w.record r) (w'.record r)
  unmade : ∀ r, w.store.next ≤ r →
    (w.record r).supersededDevices = [] ∧ (w.record r).state.isTerminal = true →
    (w'.record r).supersededDevices = [] ∧ (w'.record r).state.isTerminal = true

namespace Unmoved

variable {w w' : World}

theorem devicesOf (same : Unmoved w w') (p : Href) : w'.devicesOf p = w.devicesOf p := by
  unfold Core.devicesOf
  rw [same.discovered]

theorem reachOf (same : Unmoved w w') (p : Href) (ds : List Href) :
    w'.reachOf p ds = w.reachOf p ds := by
  unfold Core.reachOf Core.groupLocalLfdis
  rw [same.groups, same.settings]

theorem landsOn (same : Unmoved w w') {d : Href} {t : Target} :
    w'.LandsOn d t ↔ w.LandsOn d t := by
  unfold Core.LandsOn
  simp only [same.devicesOf, same.reachOf]

theorem takenOver (same : Unmoved w w') {q : Mrid} {d : Href} (taken : w.TakenOver q d) :
    w'.TakenOver q d := by
  obtain ⟨r, own, superseded, modes⟩ := taken
  have event := same.events r
  refine ⟨r, event.mrid.trans own, event.superseded superseded, ?_⟩
  rw [event.base]
  exact modes.trans (event.taken d)

theorem lastWrite (same : Unmoved w w') (t : Target) (m : Mode) :
    w'.lastWrite t m = w.lastWrite t m := by
  unfold World.lastWrite
  rw [same.issued]

theorem of_events (settings : w'.settings = w.settings) (discovered : w'.discovered = w.discovered)
    (groups : w'.groupLookup = w.groupLookup) (modes : w'.modes = w.modes)
    (issued : w'.issued = w.issued)
    (dderc : w'.dderc = w.dderc) (store : w'.store = w.store) : Unmoved w w' where
  settings := settings
  discovered := discovered
  groups := groups
  modes := modes
  issued := issued
  next := by rw [store]
  entries := fun mrid r found => store ▸ found
  remembered := fun key entry found => dderc ▸ found
  events := by
    intro r
    rw [show w'.record r = w.record r by unfold Core.record; rw [store]]
    exact SameEvent.refl _
  unmade := by
    intro r _ before
    rw [show w'.record r = w.record r by unfold Core.record; rw [store]]
    exact before

end Unmoved

section Unmoved

variable {M : Meaning} {pending : Mrid → Href → Prop} {rs : List Ref} {w w' : World}

theorem Ordered.unmoved (ordered : Ordered M pending rs w) (same : Unmoved w w') :
    Ordered M pending rs w' where
  site := ordered.site.of_same same.discovered same.groups same.settings
  keyed := by
    intro mrid q found
    obtain ⟨made, own⟩ := ordered.keyed mrid q (same.entries mrid q found)
    exact ⟨same.next.symm ▸ made, (same.events q).mrid.trans own⟩
  meant := by
    intro q made
    rw [same.next] at made
    have event := same.events q
    rw [event.program, event.base, event.mrid]
    exact ordered.meant q made
  unmade := by
    intro q late
    rw [same.next] at late
    exact same.unmade q late (ordered.unmade q late)
  served := same.discovered ▸ ordered.served
  registered := by
    intro d q m member
    rw [same.modes] at member
    rw [same.devicesOf]
    exact ordered.registered d q m member
  written := by
    intro d q settled t m lands held
    rw [same.modes] at held
    rw [same.lastWrite]
    exact ordered.written d q settled t m (same.landsOn.mp lands) held
  remembered := by
    intro lfdi p entry found ps served
    rw [same.discovered] at served
    exact ordered.remembered lfdi p entry (same.remembered _ _ found) ps served
  here := fun q member => same.next.symm ▸ ordered.here q member

theorem Tended.unmoved (tended : Tended M pending rs w) (same : Unmoved w w') :
    Tended M pending rs w' where
  ordered := tended.ordered.unmoved same
  inCharge := by
    intro t m e x releasable last event
    rw [same.lastWrite] at last
    obtain ⟨q, d, lands, then_, now⟩ := tended.inCharge t m e x releasable last event
    refine ⟨q, d, same.landsOn.mpr lands, then_, ?_⟩
    rw [same.modes]
    exact now.imp_right same.takenOver

theorem Tidy.unmoved (tidy : Tidy M rs w) (same : Unmoved w w') (idle : Idle w') :
    Tidy M rs w' := ⟨tidy.tended.unmoved same, idle⟩

end Unmoved

namespace Unmoved

variable {w w' : World}

/-- A change of a record in place. One still to be filled in stays blank. -/
theorem withRecord (w : World) (r : Ref) {change : EventRecord → EventRecord}
    (same : SameEvent (w.record r) (change (w.record r)))
    (blank : r < w.store.next ∨ ∀ record, (change record).supersededDevices = record.supersededDevices ∧
      (change record).state = record.state) :
    Unmoved w { w with toCore := w.toCore.withRecord r change } where
  settings := rfl
  discovered := rfl
  groups := rfl
  modes := rfl
  issued := rfl
  next := rfl
  entries := fun _ _ found => found
  remembered := fun _ _ found => found
  events := by
    intro q
    change SameEvent (w.record q) ((w.store.update r change).object q)
    by_cases own : q = r
    · rw [own, EventStore.object_update_self]
      exact same
    · rw [EventStore.object_update_ne _ _ own]
      exact SameEvent.refl _
  unmade := by
    intro q late before
    change ((w.store.update r change).object q).supersededDevices = [] ∧
      ((w.store.update r change).object q).state.isTerminal = true
    by_cases own : q = r
    · subst own
      rw [EventStore.object_update_self]
      rcases blank with made | kept
      · exact absurd made (Nat.not_lt_of_le late)
      · rw [(kept _).1, (kept _).2]
        exact before
    · rw [EventStore.object_update_ne _ _ own]
      exact before

theorem setState (w : World) {r : Ref} (made : r < w.store.next) (st : EventState) :
    Unmoved w (World.exec (.setState r st) w) :=
  withRecord w r ⟨rfl, rfl, rfl, fun _ h => h, fun _ _ h => h⟩ (.inl made)

theorem addSuperseded (w : World) {r : Ref} (made : r < w.store.next) (devices : List Href) :
    Unmoved w (World.exec (.addSuperseded r devices) w) :=
  withRecord w r ⟨rfl, rfl, rfl, fun _ h => List.mem_union_left h _, fun _ _ h => h⟩
    (.inl made)

theorem modesTaken_withModesTaken (record : EventRecord) (devices : List Href) (modes : Finset Mode)
    (d : Href) : record.modesTaken d ⊆ (record.withModesTaken devices modes).modesTaken d := by
  change record.supersededModes.getD d ∅ ⊆ (devices.foldl (fun taken d =>
    taken.set d (taken.getD d ∅ ∪ modes)) record.supersededModes).getD d ∅
  generalize record.supersededModes = taken
  induction devices generalizing taken with
  | nil => exact fun _ h => h
  | cons e rest ih =>
      refine Finset.Subset.trans ?_ (ih _)
      unfold Dict.getD
      rw [Dict.get?_set]
      split
      · rename_i same
        rw [same]
        exact Finset.subset_union_left
      · exact fun _ h => h

theorem addSupersededModes (w : World) {r : Ref} (made : r < w.store.next) (devices : List Href)
    (modes : Finset Mode) : Unmoved w (World.exec (.addSupersededModes r devices modes) w) :=
  withRecord w r ⟨rfl, rfl, rfl, fun _ h => h, modesTaken_withModesTaken _ devices modes⟩ (.inl made)

theorem clearDderc (w : World) (lfdis : List Lfdi) :
    Unmoved w (World.exec (.clearDderc lfdis) w) := by
  have same : Unmoved w w := of_events rfl rfl rfl rfl rfl rfl rfl
  refine { same with remembered := fun key entry found => ?_ }
  change (w.dderc.applied.filter _).get? key = some entry at found
  rw [Dict.get?_filter] at found
  exact (Option.filter_eq_some_iff.mp found).1

theorem pruneStore (w : World) (now : Int) : Unmoved w (World.exec (.pruneStore now) w) := by
  have same : Unmoved w w := of_events rfl rfl rfl rfl rfl rfl rfl
  exact { same with entries := fun _ _ found => EventStore.get?_pruneExpired found }

/-- The effects that move nothing. -/
abbrev idleEffects : List Effect :=
  [.outcome, .optOut, .offsets, .prune, .clearDefaults, .boundary, .claim, .schedule, .cancelTimers,
    .finishChild, .close, .hold]

theorem exec {c : Cmd} (listed : c.effect ∈ idleEffects) (w : World) : Unmoved w (World.exec c w) := by
  cases c with
  | upsert | setState | refresh | addSuperseded | addSupersededModes | register | unregister
  | recordDderc | spawn => simp [Cmd.effect] at listed
  | issue calls => exact absurd listed (issue_effect_notMem calls (by decide) (by decide))
  | addApplied r d =>
      exact withRecord w r ⟨rfl, rfl, rfl, fun _ h => h, fun _ _ h => h⟩
        (.inr fun _ => ⟨rfl, rfl⟩)
  | addRejected r d =>
      exact withRecord w r ⟨rfl, rfl, rfl, fun _ h => h, fun _ _ h => h⟩
        (.inr fun _ => ⟨rfl, rfl⟩)
  | setOptedOut r =>
      exact withRecord w r ⟨rfl, rfl, rfl, fun _ h => h, fun _ _ h => h⟩
        (.inr fun _ => ⟨rfl, rfl⟩)
  | pruneStore now => exact pruneStore w now
  | clearDderc lfdis => exact clearDderc w lfdis
  | _ => exact of_events rfl rfl rfl rfl rfl rfl rfl

theorem spawn (w : World) (r : Ref) (devices : List Href) :
    Unmoved w (World.exec (.spawn r devices) w) := by
  obtain ⟨children, spawned, nextPid, made⟩ := spawn_spec w.toCore r devices
  have same : World.exec (.spawn r devices) w =
      { w with children := children, spawned := spawned, nextPid := nextPid } := by
    change ({ w with toCore := devices.foldl (fun w d => w.spawnChild r d) w.toCore } : World) = _
    rw [made]
  rw [same]
  exact of_events rfl rfl rfl rfl rfl rfl rfl

theorem answered (w : World) (q : Request) (a : q.Answer) : Unmoved w (w.answered q a) := by
  obtain ⟨_, _, answered⟩ := answered_spec w q a
  rw [answered]
  exact of_events rfl rfl rfl rfl rfl rfl rfl

end Unmoved

/-! ### Sending -/

theorem writes_ne_event {call : Call} (other : call.isControl = false) (t : Target) (m : Mode)
    (x : Mrid) : call.writes t m ≠ some (.event x) := by
  cases call with
  | control => cases other
  | _ =>
      simp only [Call.writes]
      split <;> simp

section Sent

variable {M : Meaning} {pending : Mrid → Href → Prop} {rs : List Ref} {w w' : World}
  {calls : List Call}

/-- Either none of the calls writes the mode, or one of them did last. -/
theorem Sent.lastWrite (sent : Sent w w' calls) (t : Target) (m : Mode) :
    (w'.lastWrite t m = w.lastWrite t m ∧ ∀ call ∈ calls, (call.writes t m).isSome = false) ∨
      ∃ e, w'.lastWrite t m = some e ∧ e.call ∈ calls ∧ e.at_.modes = w.modes := by
  obtain ⟨dderc, log, rfl, made, at_, -⟩ := sent
  have joined : lastWriteIn t m none (w.issued ++ log) = lastWriteIn t m (w.lastWrite t m) log :=
    lastWriteIn_append ..
  rcases lastWriteIn_cases t m (w.lastWrite t m) log with ⟨same, none_⟩ | ⟨e, member, last, -⟩
  · refine .inl ⟨joined.trans same, fun call listed => ?_⟩
    rw [← made] at listed
    obtain ⟨e, member, rfl⟩ := List.mem_map.mp listed
    exact none_ e member
  · refine .inr ⟨e, joined.trans last, ?_, at_ e member⟩
    rw [← made]
    exact List.mem_map.mpr ⟨e, member, rfl⟩

theorem Sent.modes (sent : Sent w w' calls) : w'.modes = w.modes := by
  obtain ⟨_, _, rfl, -⟩ := sent
  rfl

theorem Sent.landsOn (sent : Sent w w' calls) {d : Href} {t : Target} :
    w'.LandsOn d t ↔ w.LandsOn d t := by
  obtain ⟨_, _, rfl, -⟩ := sent
  exact Iff.rfl

theorem Sent.takenOver (sent : Sent w w' calls) {q : Mrid} {d : Href} :
    w'.TakenOver q d ↔ w.TakenOver q d := by
  obtain ⟨_, _, rfl, -⟩ := sent
  exact Iff.rfl

/-- What is registered when a mode is written is registered for it then. -/
theorem Ordered.sent (ordered : Ordered M pending rs w) (sent : Sent w w' calls) :
    Ordered M pending rs w' := by
  have last := sent.lastWrite
  have modes := sent.modes
  obtain ⟨dderc, log, rfl, -, -, remembered⟩ := sent
  refine { ordered with
    site := ordered.site.of_same rfl rfl rfl, written := ?_, remembered := ?_ }
  · intro d q settled t m lands held
    rcases last t m with ⟨same, -⟩ | ⟨e, new, -, at_⟩
    · rw [same]
      exact ordered.written d q settled t m lands held
    · exact ⟨e, new, at_ ▸ held⟩
  · intro lfdi p entry found ps served
    rcases remembered (lfdi, p) entry found with before | new
    · exact ordered.remembered lfdi p entry before ps served
    · exact new ps served

theorem Tended.sent (tended : Tended M pending rs w) (sent : Sent w w' calls)
    (defaults : ∀ call ∈ calls, call.isControl = false) : Tended M pending rs w' := by
  refine ⟨tended.ordered.sent sent, fun t m e x releasable last event => ?_⟩
  rcases sent.lastWrite t m with ⟨same, -⟩ | ⟨e', new, listed, -⟩
  · rw [same] at last
    obtain ⟨dderc, log, rfl, -⟩ := sent
    exact tended.inCharge t m e x releasable last event
  · rw [new] at last
    cases last
    exact absurd event (writes_ne_event (defaults _ listed) t m x)

end Sent

/-! ### The fallback -/

theorem fallbackCalls_isControl {w : Core} {r : Ref} {clear : Bool} {call : Call}
    (member : call ∈ w.fallbackCalls r clear) : call.isControl = false := by
  rcases List.mem_append.mp member with first | cleared
  · rcases List.mem_append.mp first with planned | withdrawn
    · obtain ⟨target, -, made⟩ := List.mem_flatMap.mp planned
      exact defaultCalls_isControl _ made
    · exact withdrawCalls_isControl _ withdrawn
  · unfold Core.plannedClears at cleared
    split at cleared
    · exact absurd cleared List.not_mem_nil
    · exact clearCalls_isControl _ cleared

/-- Where nothing remembered is better, no default is held back. -/
theorem Core.Remembered.open {w : Core} (remembered : w.Remembered) (named : w.discovered.Named)
    (d : Href) : w.DefaultOpen d := by
  intro lfdi best dderc _ found
  obtain ⟨p, -, served, -⟩ := bestDdercProgram_spec found
  unfold DdercTracker.shouldApply
  cases applied : w.dderc.applied.get? (lfdi, best.href) with
  | none => rfl
  | some entry =>
      have own := named p best served
      rw [← own] at served
      exact decide_eq_true (remembered lfdi best.href entry applied best served)

theorem Ordered.lands {M : Meaning} {pending : Mrid → Href → Prop} {rs : List Ref} {w : World}
    (ordered : Ordered M pending rs w) {p d : Href} {t : Target} (mapped : d ∈ w.devicesOf p)
    (lands : w.LandsOn d t) : t ∈ w.reachOf p [d] := by
  obtain ⟨q, mapped', reached⟩ := lands
  exact ordered.site.agree p q d mapped mapped' ▸ reached

section Fallback

variable {M : Meaning} {rs : List Ref} {w w' : World} {r : Ref} {clear : Bool}

theorem Ordered.unregistered {pending : Mrid → Href → Prop} (ordered : Ordered M pending rs w)
    (r : Ref) : Ordered M pending rs (w.unregistered r) := by
  have fewer : ∀ d q, ∀ m ∈ (w.unregistered r).modes.modesOf d q, m ∈ w.modes.modesOf d q := by
    intro d q m member
    change m ∈ (w.toCore.unregistered r).modes.modesOf d q at member
    rw [modesOf_unregistered] at member
    split at member
    · exact absurd member (Finset.notMem_empty m)
    · exact member
  refine { ordered with
    site := ordered.site.of_same rfl rfl rfl, registered := ?_, written := ?_ }
  · exact fun d q m member => ordered.registered d q m (fewer d q m member)
  · exact fun d q settled t m lands held => ordered.written d q settled t m lands (fewer d q m held)

/-- The registrations once event `r` has been unregistered and calls were sent. -/
theorem Sent.modesOf_unregistered {calls : List Call} (sent : Sent (w.unregistered r) w' calls)
    (d : Href) (q : Mrid) :
    w'.modes.modesOf d q =
      if d ∈ w.devicesOf (w.record r).programHref ∧ q = (w.record r).mrid then ∅
      else w.modes.modesOf d q := by
  rw [sent.modes]
  exact Py20305.modesOf_unregistered w.toCore r d q

/-- A mode the ending event holds on a device that is not left to others, and that
an event still is the last writer of afterwards, is held by another event. -/
theorem Tended.fallback_held (tended : Tended M (fun _ _ => False) rs w)
    (sent : Sent (w.unregistered r) w'
      (if w.fallbackNeeds r = [] then [] else w.fallbackCalls r clear))
    {t : Target} {m : Mode} {e : Issued} {x : Mrid} {d : Href} (releasable : m.isReleasable = true)
    (lands : w.LandsOn d t) (held : m ∈ w.modes.modesOf d (w.record r).mrid)
    (mapped : d ∈ w.devicesOf (w.record r).programHref)
    (kept : w.leftToOthers r w.activeEvents d = false) (last : w'.lastWrite t m = some e)
    (event : e.call.writes t m = some (.event x)) :
    w'.HeldByOther (w.record r).mrid t m e := by
  have ordered := tended.ordered
  rcases sent.lastWrite t m with ⟨same, unwritten⟩ | ⟨e', new, listed, -⟩
  · rw [same] at last
    -- Whoever else holds the mode behind the target was registered at the last write.
    have elsewhere : ∀ d' x, w.LandsOn d' t → x ≠ (w.record r).mrid → m ∈ w.modes.modesOf d' x →
        w'.HeldByOther (w.record r).mrid t m e := by
      intro d' x lands' other held
      obtain ⟨e', last', then'⟩ := ordered.written d' x not_false t m lands' held
      rw [show w.lastWrite t m = some e from last] at last'
      cases last'
      refine ⟨x, d', other, sent.landsOn.mpr lands', then', ?_⟩
      rw [sent.modesOf_unregistered, if_neg fun both => other both.2]
      exact held
    by_cases other : ∃ x, x ≠ (w.record r).mrid ∧ m ∈ w.modes.modesOf d x
    · obtain ⟨x, different, shared⟩ := other
      exact elsewhere d x lands different shared
    · have released : m ∈ w.modes.released d (w.record r).mrid := by
        refine ActiveModeTracker.mem_released.mpr ⟨held, fun x different shared => ?_⟩
        exact other ⟨x, different, shared⟩
      have covered : (w.fallbackNeeds r ≠ [] ∧ ∃ call ∈ w.fallbackCalls r clear,
          (call.writes t m).isSome = true) ∨ ∃ e ∈ w.devicesOf (w.record r).programHref,
          t ∈ w.reachOf (w.record r).programHref [e] ∧
            ∃ x, x ≠ (w.record r).mrid ∧ m ∈ w.modes.modesOf e x :=
        fallback_writes ordered.site
          (fun d' _ => ordered.remembered.open ordered.site.named d') mapped released
          kept releasable (ordered.lands mapped lands)
      rcases covered with ⟨needed, call, planned, writes⟩ | ⟨d', mapped', reached, x, different, shared⟩
      · rw [if_neg needed] at unwritten
        rw [unwritten call planned] at writes
        cases writes
      · exact elsewhere d' x ⟨_, mapped', reached⟩ different shared
  · rw [new] at last
    cases last
    refine absurd event (writes_ne_event ?_ t m x)
    split at listed
    · exact absurd listed List.not_mem_nil
    · exact fallbackCalls_isControl listed

/-- The event that ends gives up its modes; what it was in charge of is written
over, held by another event or left to others. -/
theorem Tended.fallback (tended : Tended M (fun _ _ => False) rs w)
    (sent : Sent (w.unregistered r) w'
      (if w.fallbackNeeds r = [] then [] else w.fallbackCalls r clear)) :
    Tended M (fun _ _ => False) rs w' := by
  have ordered := tended.ordered
  refine ⟨(ordered.unregistered r).sent sent, fun t m e x releasable last event => ?_⟩
  rcases sent.lastWrite t m with ⟨same, -⟩ | ⟨e', new, listed, -⟩
  · obtain ⟨q, d, lands, then_, now⟩ :=
      tended.inCharge t m e x releasable (same.symm.trans last) event
    have there : w'.LandsOn d t := sent.landsOn.mpr lands
    by_cases own : d ∈ w.devicesOf (w.record r).programHref ∧ q = (w.record r).mrid
    · obtain ⟨mapped, rfl⟩ := own
      rcases now with held | taken
      · by_cases left : w.leftToOthers r w.activeEvents d = true
        · refine ⟨_, d, there, then_, .inr (sent.takenOver.mpr ⟨r, rfl, ?_⟩)⟩
          simp only [Core.leftToOthers, Bool.and_eq_true, decide_eq_true_eq] at left
          exact left.1
        · obtain ⟨q, d', -, lands', then', now⟩ := tended.fallback_held sent releasable lands held
            mapped (by simpa using left) last event
          exact ⟨q, d', lands', then', .inl now⟩
      · exact ⟨_, d, there, then_, .inr (sent.takenOver.mpr taken)⟩
    · refine ⟨q, d, there, then_, ?_⟩
      rw [sent.modesOf_unregistered, if_neg own]
      exact now.imp_right sent.takenOver.mpr
  · rw [new] at last
    cases last
    refine absurd event (writes_ne_event ?_ t m x)
    split at listed
    · exact absurd listed List.not_mem_nil
    · exact fallbackCalls_isControl listed

end Fallback

/-! ### Putting a control on devices -/

theorem modesOf_registerAll (t : ActiveModeTracker) (ds : List Href) (mrid : Mrid)
    (modes : Finset Mode) (e : Href) (x : Mrid) :
    (ds.foldl (fun t d => t.register d mrid modes) t).modesOf e x =
      if e ∈ ds ∧ x = mrid then modes else t.modesOf e x := by
  induction ds generalizing t with
  | nil => simp
  | cons d rest ih =>
      rw [List.foldl_cons, ih, ActiveModeTracker.modesOf_register]
      by_cases event : x = mrid <;> by_cases device : e = d <;> by_cases later : e ∈ rest <;>
        simp [event, device, later]

/-- The state with event `r` registered on the targets. -/
def World.registering (w : World) (r : Ref) (targets : List Href) : World :=
  { w with
    modes := targets.foldl (fun t d =>
      t.register d (w.record r).mrid (getActiveModeNames (w.record r).derc.base)) w.modes }

theorem eval_register (o : Oracle ProcSig) (w : World) (r : Ref) (targets : List Href) :
    (Co.forEach targets fun d => perform (.register d (w.record r).mrid
      (getActiveModeNames (w.record r).derc.base))).eval o w = (some (), w.registering r targets) := by
  rw [eval_forEach_perform]
  have each : ∀ (ds : List Href) (mrid : Mrid) (modes : Finset Mode) (v : World),
      ds.foldl (fun w d => World.exec (.register d mrid modes) w) v =
        { v with modes := ds.foldl (fun t d => t.register d mrid modes) v.modes } := by
    intro ds mrid modes
    induction ds with
    | nil => exact fun v => rfl
    | cons d rest ih => exact fun v => ih _
  rw [each]
  rfl

section Control

variable {M : Meaning} {pending pending' : Mrid → Href → Prop} {rs : List Ref} {w : World}

theorem Tended.mono (tended : Tended M pending rs w) (more : ∀ q d, pending q d → pending' q d) :
    Tended M pending' rs w where
  ordered :=
    { tended.ordered with
      written := fun d q settled => tended.ordered.written d q fun h => settled (more q d h) }
  inCharge := tended.inCharge

/-- A registered event has its control still to be sent. -/
theorem Tended.registering (tended : Tended M (fun _ _ => False) rs w) {r : Ref}
    (made : r < w.store.next) {targets : List Href}
    (inside : ∀ d ∈ targets, d ∈ w.devicesOf (w.record r).programHref) :
    Tended M (fun q d => q = (w.record r).mrid ∧ d ∈ targets) rs (w.registering r targets) := by
  have ordered := tended.ordered
  obtain ⟨program, base⟩ := ordered.meant r made
  have modes : ∀ d q, (w.registering r targets).modes.modesOf d q =
      if d ∈ targets ∧ q = (w.record r).mrid then getActiveModeNames (M.base (w.record r).mrid)
      else w.modes.modesOf d q := by
    intro d q
    rw [← base]
    exact modesOf_registerAll w.modes targets _ _ d q
  refine ⟨{ ordered with
    site := ordered.site.of_same rfl rfl rfl, registered := ?_, written := ?_ }, ?_⟩
  · intro d q m member
    rw [modes] at member
    split at member
    · rename_i own
      rw [own.2]
      exact ⟨program ▸ inside d own.1, member⟩
    · exact ordered.registered d q m member
  · intro d q settled t m lands held
    rw [modes, if_neg fun own => settled ⟨own.2, own.1⟩] at held
    exact ordered.written d q not_false t m lands held
  · intro t m e x releasable last event
    obtain ⟨q, d, lands, then_, now⟩ := tended.inCharge t m e x releasable last event
    refine ⟨q, d, lands, then_, now.imp_left fun held => ?_⟩
    rw [modes]
    split
    · rename_i own
      exact own.2 ▸ (ordered.registered d q m held).2
    · exact held

/-- A control is sent for an event where it is registered. -/
theorem Tended.control (tended : Tended M pending rs w) {mrid : Mrid} {ts : List Target}
    (own : ∀ t ∈ ts, ∃ d, w.LandsOn d t ∧
      getActiveModeNames (M.base mrid) ⊆ w.modes.modesOf d mrid)
    (sent : ∀ q d, pending q d → ¬ pending' q d → q = mrid ∧ ∀ t, w.LandsOn d t → t ∈ ts) :
    Tended M pending' rs
      (World.exec (.issue (ts.map fun t => .control t mrid (M.base mrid))) w) := by
  have issued := Sent.issue w (ts.map fun t => Call.control t mrid (M.base mrid))
  have ordered := tended.ordered.sent issued
  refine ⟨{ ordered with written := fun d q settled t m lands held => ?_ }, ?_⟩
  · by_cases waits : pending q d
    · obtain ⟨rfl, reached⟩ := sent q d waits settled
      rcases issued.lastWrite t m with ⟨-, unwritten⟩ | ⟨e, last, -, at_⟩
      · -- The control writes every mode the event is registered for.
        have names := (tended.ordered.registered d q m held).2
        have writes := unwritten (.control t q (M.base q)) (List.mem_map.mpr ⟨t, reached t lands, rfl⟩)
        simp [Call.writes, getActiveModeNames_subset_translated _ names] at writes
      · exact ⟨e, last, at_ ▸ held⟩
    · exact ordered.written d q waits t m lands held
  · intro t m e x releasable last event
    rcases issued.lastWrite t m with ⟨same, -⟩ | ⟨e', new, listed, at_⟩
    · rw [same] at last
      exact tended.inCharge t m e x releasable last event
    · rw [new] at last
      cases last
      obtain ⟨t', member, made⟩ := List.mem_map.mp listed
      rw [← made] at event
      simp only [Call.writes] at event
      split at event
      · rename_i both
        obtain ⟨rfl, translated⟩ := both
        have names : m ∈ getActiveModeNames (M.base mrid) := by
          rw [mem_getActiveModeNames]
          exact ⟨(mem_translatedModes.mp translated).1, Mode.isTracked_of_isReleasable releasable⟩
        obtain ⟨d, lands, registered⟩ := own t' member
        exact ⟨mrid, d, lands, at_ ▸ registered names, .inl (registered names)⟩
      · cases event

end Control

theorem respondOutcome_landed_within (r : Ref) (d : Href) :
    Within (respondOutcome r d none) [.outcome, .claim] responseWaits := by
  refine Within.bind (Within.perform (by simp [Cmd.effect])) fun _ => Within.get fun w => ?_
  exact (postResponseForDevices_within _ _ _).mono (by decide) (by decide)

/-- The children made for `r` are one for each of its targets. -/
theorem spawned_spawn (r : Ref) (devices : List Href) (core : Core) :
    (∀ pid < core.nextPid, (devices.foldl (fun w d => w.spawnChild r d) core).spawned.get? pid =
      core.spawned.get? pid) ∧
    ∀ d ∈ devices, ∃ pid,
      (devices.foldl (fun w d => w.spawnChild r d) core).spawned.get? pid = some (r, d) := by
  induction devices generalizing core with
  | nil => exact ⟨fun _ _ => rfl, fun d member => absurd member List.not_mem_nil⟩
  | cons e rest ih =>
      obtain ⟨before, made⟩ := ih (core.spawnChild r e)
      refine ⟨fun pid old => ?_, fun d member => ?_⟩
      · refine (before pid (Nat.lt_succ_of_lt old)).trans ?_
        exact Dict.get?_set_ne _ _ (Nat.ne_of_lt old)
      · rcases List.mem_cons.mp member with rfl | later
        · refine ⟨core.nextPid, (before _ (Nat.lt_succ_self _)).trans ?_⟩
          exact Dict.get?_set_self _ _ _
        · exact made d later

theorem spawned_of_spawn {r : Ref} {devices : List Href} {core : Core}
    (none_ : ∀ pid, core.spawned.get? pid = none) {pid : Pid} {v : Ref × Href}
    (found : (devices.foldl (fun w d => w.spawnChild r d) core).spawned.get? pid = some v) :
    v.1 = r ∧ v.2 ∈ devices := by
  have each : ∀ (ds : List Href) (core : Core),
      (∀ pid v, core.spawned.get? pid = some v → v.1 = r ∧ v.2 ∈ devices) → ds ⊆ devices →
      ∀ pid v, (ds.foldl (fun w d => w.spawnChild r d) core).spawned.get? pid = some v →
        v.1 = r ∧ v.2 ∈ devices := by
    intro ds
    induction ds with
    | nil => exact fun core before _ => before
    | cons d rest ih =>
        intro core before inside
        refine ih _ (fun pid v found => ?_) fun e member => inside (List.mem_cons_of_mem d member)
        simp only [Core.spawnChild, Dict.get?_set] at found
        split at found
        · cases found
          exact ⟨rfl, inside List.mem_cons_self⟩
        · exact before pid v found
  refine each devices core (fun pid v found => ?_) (List.Subset.refl _) pid v found
  rw [none_ pid] at found
  cases found

/-- The invariant while the children made for `r` are still to run. -/
structure Launching (M : Meaning) (rs : List Ref) (r : Ref) (mrid : Mrid)
    (waiting : List (Pid × Ref × Href)) (w : World) : Prop where
  tended : Tended M (fun q d => q = mrid ∧ ∃ pid, (pid, r, d) ∈ waiting) rs w
  own : (w.record r).mrid = mrid
  made : r < w.store.next
  each : ∀ e ∈ waiting, e.2.1 = r ∧ (∀ t, w.LandsOn e.2.2 t ↔ t = .href e.2.2) ∧
    getActiveModeNames (M.base mrid) ⊆ w.modes.modesOf e.2.2 mrid

section Launching

variable {M : Meaning} {rs : List Ref} {r : Ref} {mrid : Mrid}
  {waiting : List (Pid × Ref × Href)} {w w' : World}

theorem Launching.unmoved (launching : Launching M rs r mrid waiting w) (same : Unmoved w w') :
    Launching M rs r mrid waiting w' where
  tended := launching.tended.unmoved same
  own := (same.events r).mrid.trans launching.own
  made := same.next.symm ▸ launching.made
  each := by
    intro e member
    simp only [same.landsOn, same.modes]
    exact launching.each e member

/-- One child of the dispatch, its device answering. -/
theorem Launching.child {env : Answers} (succeeds : ∀ call, env.outcome call = none) {pid : Pid}
    {d : Href} (launching : Launching M rs r mrid ((pid, r, d) :: waiting) w) :
    Launching M rs r mrid waiting ((dispatchAndReport r d).final (World.leafOracle env) w) := by
  obtain ⟨-, lands, registered⟩ := launching.each _ List.mem_cons_self
  let call := Call.control (.href d) (w.record r).mrid (w.record r).derc.base
  have base : (w.record r).derc.base = M.base mrid := by
    rw [← launching.own]
    exact (launching.tended.ordered.meant r launching.made).2
  have issued : Launching M rs r mrid waiting (World.exec (.issue [call]) w) := by
    refine ⟨?_, launching.own, launching.made,
      fun e member => launching.each e (List.mem_cons_of_mem _ member)⟩
    simp only [call, launching.own, base]
    change Tended M _ rs (World.exec (.issue ([Target.href d].map fun t =>
      .control t mrid (M.base mrid))) w)
    refine launching.tended.control (fun t member => ?_) fun q e waits sent => ?_
    · rw [List.mem_singleton.mp member]
      exact ⟨d, (lands _).mpr rfl, registered⟩
    · -- What is no longer pending is what this child sends.
      obtain ⟨rfl, pid', member⟩ := waits
      rcases List.mem_cons.mp member with here | later
      · cases here
        exact ⟨rfl, fun t reached => List.mem_singleton.mpr ((lands t).mp reached)⟩
      · exact absurd ⟨rfl, pid', later⟩ sent
  have rest : Within (respondOutcome r d none >>= fun _ => perform .finishChild)
      [.outcome, .claim, .finishChild] responseWaits :=
    Within.bind ((respondOutcome_landed_within r d).mono (by decide) (by decide))
      fun _ => Within.perform (by decide)
  change Launching M rs r mrid waiting (Co.eval (World.leafOracle env)
    (respondOutcome r d (env.outcome call) >>= fun _ => perform .finishChild)
    ((World.exec (.issue [call]) w).answered (.dispatch call) (env.outcome call))).2
  rw [succeeds]
  refine Co.eval_keeps (World.leafOracle env) (Launching M rs r mrid waiting)
    (fun c v listed h => h.unmoved (Unmoved.exec (List.Subset.trans (by decide)
      (List.Subset.refl _) listed) v)) (fun q v _ h => ?_) rest
    (issued.unmoved (Unmoved.answered _ _ _))
  cases q with
  | join => exact h
  | _ => exact h.unmoved (Unmoved.answered v _ _)

/-- All of them. -/
theorem Launching.run {env : Answers} (succeeds : ∀ call, env.outcome call = none) (parent : Pid)
    (launching : Launching M rs r mrid w.spawned.entries w) :
    Tidy M rs (World.runChildren env parent w) := by
  obtain ⟨v, ran, done, idle⟩ := runChildren_induct env parent
    (fun waiting v => Launching M rs r mrid waiting v)
    (fun pid q d rest v h => by
      obtain rfl : q = r := (h.each _ List.mem_cons_self).1
      exact Launching.child succeeds (h.unmoved (Unmoved.of_events rfl rfl rfl rfl rfl rfl rfl)))
    launching
  rw [ran]
  have same : Unmoved v { v with current := parent } :=
    Unmoved.of_events rfl rfl rfl rfl rfl rfl rfl
  refine ⟨(done.tended.unmoved same).mono ?_, idle⟩
  rintro q d ⟨-, pid, member⟩
  exact absurd member List.not_mem_nil

end Launching

section Applying

variable {M : Meaning} {rs : List Ref} {w : World} {env : Answers}

theorem tidy_exec {c : Cmd} (listed : c.effect ∈ Unmoved.idleEffects) (tidy : Tidy M rs w) :
    Tidy M rs (World.exec c w) :=
  tidy.unmoved (Unmoved.exec listed w) (idle_exec
    (fun spawns => by rw [spawns] at listed; exact absurd listed (by decide)) tidy.idle)

theorem tidy_answered {q : Request} (a : q.Answer) (tidy : Tidy M rs w) :
    Tidy M rs (w.answered q a) := by
  refine tidy.unmoved (Unmoved.answered w q a) ?_
  obtain ⟨_, _, answered⟩ := answered_spec w q a
  rw [answered]
  exact tidy.idle

theorem tidy_quiet {α : Type} {m : Proc α} {es : List Effect} {ws : List Await} {E : Prop}
    (within : Within m es ws E) (effects : es ⊆ Unmoved.idleEffects) (waits : ws ⊆ calm) :
    Keeps env (Tidy M rs) m :=
  Keeps.of_within within waits (fun _ _ listed tidy => tidy_exec (effects listed) tidy)
    fun _ a _ tidy => tidy_answered a tidy

/-- Nothing lands on the devices of an empty group, so nothing changes there. -/
theorem Tidy.unregister (tidy : Tidy M rs w) {d : Href} (silent : ∀ t, ¬ w.LandsOn d t)
    (mrid : Mrid) : Tidy M rs (World.exec (.unregister d mrid) w) := by
  have ordered := tidy.tended.ordered
  have modes : ∀ e q, (World.exec (.unregister d mrid) w).modes.modesOf e q =
      if e = d ∧ q = mrid then ∅ else w.modes.modesOf e q :=
    fun e q => ActiveModeTracker.modesOf_unregister w.modes d e mrid q
  have fewer : ∀ e q, ∀ m ∈ (World.exec (.unregister d mrid) w).modes.modesOf e q,
      m ∈ w.modes.modesOf e q := by
    intro e q m member
    rw [modes] at member
    split at member
    · exact absurd member (Finset.notMem_empty m)
    · exact member
  refine ⟨⟨{ ordered with
    site := ordered.site.of_same rfl rfl rfl
    registered := fun e q m member => ordered.registered e q m (fewer e q m member)
    written := fun e q settled t m lands held =>
      ordered.written e q settled t m lands (fewer e q m held) }, ?_⟩, tidy.idle⟩
  intro t m e x releasable last event
  obtain ⟨q, e', lands, then_, now⟩ := tidy.tended.inCharge t m e x releasable last event
  refine ⟨q, e', lands, then_, now.imp_left fun held => ?_⟩
  rw [modes, if_neg]
  · exact held
  · rintro ⟨rfl, -⟩
    exact silent t lands

/-- A device of an empty group is reported as failed. -/
theorem tidy_respondFailed (r : Ref) {targets : List Href} {d : Href} (listed : d ∈ targets)
    (failure : DispatchFailure) :
    Keeps env (fun v => Tidy M rs v ∧ ∀ e ∈ targets, ∀ t, ¬ v.LandsOn e t)
      (respondOutcome r d (some failure)) := by
  have frame : ∀ v v' : World, Unmoved v v' → (∀ e ∈ targets, ∀ t, ¬ v.LandsOn e t) →
      ∀ e ∈ targets, ∀ t, ¬ v'.LandsOn e t :=
    fun v v' same silent e member t lands => silent e member t (same.landsOn.mp lands)
  rintro v ⟨tidy, silent⟩
  have marked : Tidy M rs (World.exec (.addRejected r d) v) :=
    tidy_exec (by simp [Cmd.effect]) tidy
  have dropped := marked.unregister (silent d listed)
    ((World.exec (.addRejected r d) v).record r).mrid
  refine Co.eval_keeps (World.oracle env)
    (fun v => Tidy M rs v ∧ ∀ e ∈ targets, ∀ t, ¬ v.LandsOn e t)
    (fun c u effect h => ?_) (fun q u kind h => ?_)
    (postResponseForDevices_within _ _ _ : Within _ [.claim] responseWaits) ⟨dropped, silent⟩
  · have effect : c.effect ∈ Unmoved.idleEffects :=
      List.Subset.trans (by decide) (List.Subset.refl _) effect
    exact ⟨tidy_exec effect h.1, frame u _ (Unmoved.exec effect u) h.2⟩
  · cases q with
    | join => exact absurd kind (by decide)
    | _ => exact ⟨tidy_answered _ h.1, frame u _ (Unmoved.answered u _ _) h.2⟩

/-- The calls to the devices of a group, of an event registered on its targets. -/
theorem tidy_dispatchByLfdiGroup (succeeds : ∀ call, env.outcome call = none) {r : Ref}
    {lfdis : List Lfdi} {targets : List Href} (some_ : targets ≠ []) (made : r < w.store.next)
    (tended : Tended M (fun q d => q = (w.record r).mrid ∧ d ∈ targets) rs w) (idle : Idle w)
    (lands : ∀ d ∈ targets, ∀ t, w.LandsOn d t ↔ t ∈ lfdis.map .lfdi)
    (registered : ∀ d ∈ targets,
      getActiveModeNames (M.base (w.record r).mrid) ⊆ w.modes.modesOf d (w.record r).mrid) :
    Tidy M rs ((dispatchByLfdiGroup r lfdis targets).eval (World.oracle env) w).2 := by
  have base : (w.record r).derc.base = M.base (w.record r).mrid :=
    (tended.ordered.meant r made).2
  let calls := lfdis.map fun l => Call.control (.lfdi l) (w.record r).mrid (w.record r).derc.base
  obtain ⟨results, outcomes, gathered⟩ := eval_gatherCalls env w calls
  have landed : ∀ i, results i = none := by
    intro i
    rw [outcomes i]
    cases calls[i]? with
    | none => rfl
    | some call => exact succeeds call
  have issued : Tidy M rs (World.exec (.issue calls) w) := by
    have same : calls = (lfdis.map Target.lfdi).map fun t =>
        Call.control t (w.record r).mrid (M.base (w.record r).mrid) := by
      simp only [calls, base, List.map_map]
      rfl
    rw [same]
    refine ⟨tended.control (fun t member => ?_) fun q d waits _ => ?_, idle⟩
    · obtain ⟨d, listed⟩ := List.exists_mem_of_ne_nil targets some_
      exact ⟨d, (lands d listed t).mpr member, registered d listed⟩
    · exact ⟨waits.1, fun t reached => (lands d waits.2 t).mp reached⟩
  change Tidy M rs (Co.eval (World.oracle env) ((gatherCalls calls).bind fun results =>
    Co.forEach targets fun d => respondOutcome r d (aggregateOutcome lfdis results)) w).2
  rw [Co.eval_bind, gathered]
  by_cases none_ : lfdis = []
  · -- An empty group: every target is given up, and nothing lands on any.
    have failed : aggregateOutcome lfdis results = some .deviceNotConfigured := if_pos none_
    simp only [failed]
    have reported : Keeps env (fun v => Tidy M rs v ∧ ∀ e ∈ targets, ∀ t, ¬ v.LandsOn e t)
        (Co.forEach targets fun d => respondOutcome r d (some .deviceNotConfigured)) :=
      Keeps.forEach fun d member => tidy_respondFailed r member _
    refine (reported _ ⟨issued, ?_⟩).1
    intro e member t reached
    have := (lands e member t).mp reached
    simp [none_] at this
  · have fine : aggregateOutcome lfdis results = none := by
      unfold aggregateOutcome
      rw [if_neg none_, if_neg]
      simp only [landed, List.all_eq_true, List.mem_range]
      intro all
      exact absurd (all 0 (List.length_pos_iff.mpr none_)) (by simp)
    simp only [fine]
    have within : Within (Co.forEach targets fun d => respondOutcome r d none) [.outcome, .claim]
        responseWaits := Within.forEach fun d _ => respondOutcome_landed_within r d
    exact tidy_quiet within (by decide) (by decide) _ issued

/-- `_apply_and_respond` of a record that was made, every device answering. -/
theorem tidy_applyAndRespond (succeeds : ∀ call, env.outcome call = none) {r : Ref}
    (listed : r ∈ rs) : Keeps env (Tidy M rs) (applyAndRespond r) := by
  refine Keeps.get fun w tidy => ?_
  have ordered := tidy.tended.ordered
  have made := ordered.here r listed
  let targets := (w.uniqueDevices (w.record r).programHref).filter
    (· ∉ (w.record r).supersededDevices)
  change Tidy M rs (Co.eval (World.oracle env) (if targets = [] then _ else _) w).2
  by_cases none_ : targets = []
  · rw [if_pos none_]
    exact tidy_quiet (postResponse_within _ _ _ _) (by decide) (by decide) w tidy
  · rw [if_neg none_]
    have inside : ∀ d ∈ targets, d ∈ w.devicesOf (w.record r).programHref :=
      fun d member => mem_uniqueDevices.mp (List.mem_of_mem_filter member)
    have tended := tidy.tended.registering made inside
    have registered : ∀ d ∈ targets, getActiveModeNames (M.base (w.record r).mrid) ⊆
        (w.registering r targets).modes.modesOf d (w.record r).mrid := by
      intro d member
      change _ ⊆ (targets.foldl _ w.modes).modesOf d _
      rw [modesOf_registerAll, if_pos ⟨member, rfl⟩, (ordered.meant r made).2]
    have reach : ∀ d ∈ targets, ∀ t, w.LandsOn d t ↔ t ∈ w.reachOf (w.record r).programHref [d] :=
      fun d member t => ⟨ordered.lands (inside d member), fun h => ⟨_, inside d member, h⟩⟩
    change Tidy M rs (Co.eval (World.oracle env) (Co.bind (Co.forEach targets fun d => perform
      (.register d (w.record r).mrid (getActiveModeNames (w.record r).derc.base))) _) w).2
    rw [Co.eval_bind, eval_register]
    dsimp only
    cases group : w.groupLocalLfdis (w.record r).programHref with
    | some lfdis =>
        refine tidy_dispatchByLfdiGroup succeeds none_ made tended tidy.idle
          (fun d member t => (reach d member t).trans ?_) registered
        unfold Core.reachOf
        rw [group]
    | none =>
        -- The children: one for each target, since none was waiting before.
        have same : Unmoved (w.registering r targets)
            (World.exec (.spawn r targets) (w.registering r targets)) := Unmoved.spawn _ r targets
        have launched : Launching M rs r (w.record r).mrid
            (World.exec (.spawn r targets) (w.registering r targets)).spawned.entries
            (World.exec (.spawn r targets) (w.registering r targets)) := by
          refine ⟨(tended.unmoved same).mono ?_, (same.events r).mrid, same.next.symm ▸ made, ?_⟩
          · rintro q d ⟨own, member⟩
            obtain ⟨pid, found⟩ := (spawned_spawn r targets (w.registering r targets).toCore).2 d member
            exact ⟨own, pid, (Dict.mem_entries_iff _ _ _).mpr found⟩
          · intro e member
            have found : (targets.foldl (fun w d => w.spawnChild r d)
                (w.registering r targets).toCore).spawned.get? e.1 = some e.2 :=
              (Dict.mem_entries_iff _ e.1 e.2).mp member
            have none_ : ∀ pid, (w.registering r targets).spawned.get? pid = none := tidy.idle
            obtain ⟨own, target⟩ := spawned_of_spawn none_ found
            refine ⟨own, fun t => ?_, ?_⟩
            · refine same.landsOn.trans ((reach _ target t).trans ?_)
              unfold Core.reachOf
              rw [group]
              simp
            · rw [same.modes]
              exact registered _ target
        exact launched.run succeeds _

end Applying

/-! ### Every task -/

section Tasks

variable {M : Meaning} {rs : List Ref} {w : World} {env : Answers}

theorem Tidy.hold (tidy : Tidy M rs w) {r : Ref} (made : r < w.store.next) : Tidy M (r :: rs) w :=
  have ordered := tidy.tended.ordered
  ⟨⟨{ ordered with here := List.forall_mem_cons.mpr ⟨made, ordered.here⟩ }, tidy.tended.inCharge⟩,
    tidy.idle⟩

theorem Tidy.forget {r : Ref} (tidy : Tidy M (r :: rs) w) : Tidy M rs w :=
  have ordered := tidy.tended.ordered
  ⟨⟨{ ordered with here := fun q member => ordered.here q (List.mem_cons_of_mem r member) },
    tidy.tended.inCharge⟩, tidy.idle⟩

theorem tidy_transition (mrid : Mrid) (st : EventState) :
    Keeps env (Tidy M rs) (transition mrid st) := by
  intro w tidy
  cases stored : w.store.get? mrid with
  | none =>
      rw [eval_transition_none _ _ stored]
      exact tidy
  | some r =>
      rw [eval_transition _ _ stored]
      obtain ⟨made, -⟩ := tidy.tended.ordered.keyed mrid r stored
      exact tidy.unmoved (Unmoved.setState w made st) tidy.idle

theorem tidy_fallback (r : Ref) (clear : Bool) :
    Keeps env (Tidy M rs) (applyDdercFallback r clear) := by
  intro w tidy
  obtain ⟨w', ran, sent⟩ := eval_fallback env r clear tidy.tended.ordered.site.named
  rw [ran]
  refine ⟨tidy.tended.fallback sent, ?_⟩
  obtain ⟨_, _, rfl, -⟩ := sent
  exact tidy.idle

theorem tidy_composes (env : Answers) (M : Meaning) (rs : List Ref) :
    Composes housekeeping (Keeps env (Tidy M rs)) where
  carries := List.Subset.refl _
  bind := Keeps.bind
  get := fun rest => Keeps.get fun w => rest w w
  quiet := fun within => tidy_quiet within (by decide) (by decide)
  respond := fun _ _ _ _ => tidy_quiet (respondFor_within _ _ _) (by decide) (by decide)
  fallback := tidy_fallback
  initial := by
    intro p w tidy
    obtain ⟨w', calls, ran, sent, defaults⟩ := eval_initial env p tidy.tended.ordered.site.named
    rw [ran]
    refine ⟨tidy.tended.sent sent defaults, ?_⟩
    obtain ⟨_, _, rfl, -⟩ := sent
    exact tidy.idle

theorem tidy_ending (mrid : Mrid) (st : EventState) (_ : st.isTerminal = true) :
    Keeps env (Tidy M rs) (transition mrid st) := tidy_transition mrid st

theorem tidy_hold (refs : List Ref) : Keeps env (Tidy M rs) (perform (.hold refs)) := by
  have held : Within (perform (.hold refs)) [.hold] [] := Within.perform (by simp [Cmd.effect])
  exact tidy_quiet held (by decide) (by decide)

theorem tidy_supersede (map : ProgramDevices) (result : SupersessionResult) :
    Keeps env (Tidy M rs) (supersede map result) := by
  refine Keeps.get fun w tidy => ?_
  split
  · rename_i r by_ found _
    have held := tidy.hold (tidy.tended.ordered.keyed _ r found).1
    have good := tidy_composes env M (r :: rs)
    refine Tidy.forget (r := r) ?_
    dsimp only
    split
    · exact held
    · split
      · exact held
      · refine good.bind (fun v there => ?_) (fun _ => ?_) w held
        · exact there.unmoved (Unmoved.addSuperseded v
            (there.tended.ordered.here r List.mem_cons_self) _) there.idle
        · refine good.bind (tidy_hold _) fun _ => good.bind ?_ fun _ => ?_
          · exact good.postResponseForDevices (good.respond (by decide) (by decide)) _ _
          · refine good.bind (tidy_hold _) fun _ => ?_
            refine good.bind (good.onlyIf fun v there => ?_) fun _ =>
              good.supersedeIfFully tidy_ending map _
            exact there.unmoved (Unmoved.addSupersededModes v
              (there.tended.ordered.here r List.mem_cons_self) _ _) there.idle
  · exact tidy

/-- The server's update of a known event. -/
theorem tidy_knownControl {derc : Dercontrol} {r : Ref} (stored : w.store.get? derc.mrid = some r)
    {p : Href} (fits : M.Fits p derc) (tidy : Tidy M rs w) :
    Tidy M rs ((knownControl r derc).eval (World.oracle env) w).2 := by
  have good := tidy_composes env M rs
  obtain ⟨made, own⟩ := tidy.tended.ordered.keyed _ r stored
  have base : derc.base = (w.record r).derc.base := by
    rw [(tidy.tended.ordered.meant r made).2]
    change _ = M.base (w.store.object r).mrid
    rw [own]
    exact fits.2.symm
  have refreshed : Tidy M rs (World.exec (.refresh r derc
      ((derc.eventStatus.bind (·.dateTime)).getD 0)) w) :=
    tidy.unmoved (Unmoved.withRecord w r ⟨rfl, rfl, base, fun _ h => h, fun _ _ h => h⟩
      (.inl made)) tidy.idle
  refine Keeps.get (P := Tidy M rs) (fun v there => ?_) _ refreshed
  split
  · exact good.bind (good.handleCancellation tidy_ending r) (fun _ => good.stopIfClosed) v there
  · exact there

/-- A new record of an event as it is meant. -/
theorem Tidy.upsert (tidy : Tidy M rs w) {record : EventRecord}
    (program : record.programHref = M.program record.mrid)
    (base : record.derc.base = M.base record.mrid) :
    Tidy M (w.store.next :: rs) (World.exec (.upsert record) w) := by
  have ordered := tidy.tended.ordered
  have new : (World.exec (.upsert record) w).record w.store.next = record :=
    Function.update_self ..
  have old : ∀ r, r ≠ w.store.next → (World.exec (.upsert record) w).record r = w.record r :=
    fun r other => Function.update_of_ne other ..
  refine ⟨⟨{ ordered with
    site := ordered.site.of_same rfl rfl rfl, keyed := exec_keyed _ w ordered.keyed,
    meant := ?_, unmade := ?_, here := ?_ }, ?_⟩, tidy.idle⟩
  · intro q made
    by_cases mine : q = w.store.next
    · rw [mine, new]
      exact ⟨program, base⟩
    · rw [old q mine]
      exact ordered.meant q (lt_of_le_of_ne (Nat.le_of_lt_succ made) mine)
  · intro q late
    rw [old q (Nat.ne_of_gt late)]
    exact ordered.unmade q (Nat.le_of_succ_le late)
  · intro q member
    rcases List.mem_cons.mp member with rfl | before
    · exact Nat.lt_succ_self _
    · exact Nat.lt_succ_of_lt (ordered.here q before)
  · intro t m e x releasable last event
    obtain ⟨q, d, lands, then_, now⟩ := tidy.tended.inCharge t m e x releasable last event
    refine ⟨q, d, lands, then_, now.imp_right ?_⟩
    rintro ⟨r, own, superseded, modes⟩
    -- A record still to be filled in was not superseded.
    have other : r ≠ w.store.next := by
      rintro rfl
      rw [(ordered.unmade _ (Nat.le_refl _)).1] at superseded
      exact absurd superseded List.not_mem_nil
    refine ⟨r, ?_⟩
    rw [old r other]
    exact ⟨own, superseded, modes⟩

variable (succeeds : ∀ call, env.outcome call = none)

include succeeds

theorem tidy_storeNew {p : Href} {derc : Dercontrol} {record : EventRecord}
    (program : record.programHref = M.program record.mrid)
    (base : record.derc.base = M.base record.mrid) (tidy : Tidy M rs w) :
    Tidy M rs ((storeNew p derc record).eval (World.oracle env) w).2 := by
  have good := tidy_composes env M (w.store.next :: rs)
  change Tidy M rs (Co.eval (World.oracle env) (if _ then _ else _) w).2
  split
  · have stored : Tidy M (w.store.next :: rs)
        (World.exec (.upsert { record with state := .cancelled }) w) := tidy.upsert program base
    refine Tidy.forget (good.bind ?_ (fun _ => good.stopIfClosed) _ stored)
    exact good.postResponse (good.respond (by decide) (by decide)) _ _ _
  · have set_ : Keeps env (Tidy M (w.store.next :: rs)) (do
        perform (.clearDderc ((w.devicesOf p).filterMap w.deviceLfdi))
        introduce record.state w.store.next
        stopIfClosed) := by
      refine good.bind (good.perform (by simp [Cmd.effect])) fun _ => ?_
      refine good.bind ?_ fun _ => good.stopIfClosed
      refine good.introduce _ ?_
      exact good.handleLateDiscovery tidy_supersede
        (tidy_applyAndRespond succeeds List.mem_cons_self)
    exact Tidy.forget (set_ _ (tidy.upsert program base))

theorem tidy_newControl {p : Href} (primacy : Nat) (now : Int) {derc : Dercontrol}
    (start duration : Int) (fits : M.Fits p derc) :
    Keeps env (Tidy M rs) (newControl p primacy now derc start duration) := by
  have good := tidy_composes env M rs
  refine Keeps.get fun w tidy => ?_
  split
  · exact tidy
  · split
    · split
      · exact tidy
      · refine good.bind ?_ (fun _ => good.stopIfClosed) w tidy
        exact tidy_quiet (postResponse_within _ _ _ _) (by decide) (by decide)
    · exact tidy_storeNew succeeds fits.1.symm fits.2.symm tidy

theorem tidy_processControl {p : Href} (primacy : Nat) (now : Int) {derc : Dercontrol}
    (fits : M.Fits p derc) : Keeps env (Tidy M rs) (processControl p primacy now derc) := by
  refine Keeps.bind (tidy_quiet (effectiveOffsets_within p derc) (by decide) (by decide))
    fun offsets => Keeps.get fun w tidy => ?_
  split
  · rename_i r stored
    exact tidy_knownControl stored fits tidy
  · exact tidy_newControl succeeds primacy now _ _ fits w tidy

theorem tidy_processControls (p : Href) (room : Nat) :
    Keeps env (Tidy M []) (processControls p room) := by
  have good := tidy_composes env M []
  intro w tidy
  have served : ∀ v, Tidy M [] v → ∀ (p : Href) (ps : DerProgramState), True →
      v.discovered.derPrograms.get? p = some ps →
      True ∧ ∀ c ∈ ps.derControls, M.Fits p c ∧ M.Fits ps.href c := by
    intro v there p ps _ found
    refine ⟨trivial, fun c listed => ?_⟩
    have fits := there.tended.ordered.served p ps found c listed
    rw [there.tended.ordered.site.named p ps found]
    exact ⟨fits, fits⟩
  refine Keeps.processControls served room trivial
    (fun q primacy derc _ fits => tidy_processControl succeeds primacy _ fits)
    (fun ps epoch => good.reconcileServed tidy_ending tidy_hold ps epoch _) (fun _ h => h)
    (fun v there => ?_) tidy
  have pruning : ∀ {c : Cmd}, c.effect = .prune → Keeps env (Tidy M []) (perform c) :=
    fun effect v there => tidy_exec (by rw [effect]; decide) there
  refine good.bind (good.runSupersession tidy_supersede) (fun _ => good.unlessClosed ?_) v there
  refine good.bind (pruning rfl) fun _ => good.bind (pruning rfl) fun _ => ?_
  exact good.bind (pruning rfl) fun _ => good.initial p

/-- A timer. A record still to be filled in has ended, so nothing is done for it. -/
theorem tidy_fireTimer (callback : Callback) (r : Ref) :
    Keeps env (Tidy M []) (fireTimer callback r) := by
  refine Keeps.get fun w tidy => ?_
  split
  · exact tidy
  · rename_i running
    have made : r < w.store.next := by
      by_contra late
      exact running (tidy.tended.ordered.unmade r (Nat.le_of_not_lt late)).2
    have good := tidy_composes env M [r]
    refine Tidy.forget (r := r) ?_
    cases callback with
    | activation =>
        exact good.onActivation (fun mrid => tidy_transition mrid .active) tidy_supersede
          (tidy_applyAndRespond succeeds List.mem_cons_self) w (tidy.hold made)
    | completion => exact good.onCompletion tidy_ending r w (tidy.hold made)
    | windDown => exact good.fallback r false w (tidy.hold made)

theorem tidy_body {j : Job} (other : ∀ r d, j ≠ .dispatchAndReport r d) :
    Keeps env (Tidy M []) j.body := by
  have good := tidy_composes env M []
  cases j with
  | processControls p room => exact tidy_processControls succeeds p room
  | cancelProgram p => exact good.cancelProgram tidy_ending p
  | enterCommsLoss => exact good.enterCommsLoss
  | shutdown => exact good.perform (by decide)
  | timer callback r => exact tidy_fireTimer succeeds callback r
  | dispatchAndReport r d => exact absurd rfl (other r d)

end Tasks

/-! ### Runs -/

/-- Every dispatch succeeds. -/
def Succeeding (_ : World) (env : Answers) (_ : Job) : Prop := ∀ call, env.outcome call = none

/-- Every control the programs serve is what its mRID stands for. -/
def Meaning.Serves (M : Meaning) (w : Core) : Prop :=
  ∀ p ps, w.discovered.derPrograms.get? p = some ps → ∀ c ∈ ps.derControls, M.Fits p c

/-- What happens around the processor leaves the devices of the programs and what
they are written through as they are, and no program's primacy gets worse than a
default of it is remembered with. -/
structure SiteKept (M : Meaning) (w : World) (e : Ext) : Prop where
  devices : ∀ p, (e.apply w.toCore).devicesOf p = w.devicesOf p
  reach : ∀ p ds, (e.apply w.toCore).reachOf p ds = w.reachOf p ds
  known : ∀ p, ∀ d ∈ w.devicesOf p, (e.apply w.toCore).deviceLfdi d ≠ none
  named : (e.apply w.toCore).discovered.Named
  serves : M.Serves (e.apply w.toCore)
  remembered : (e.apply w.toCore).Remembered

section Runs

variable {M : Meaning}

theorem tidy_start {w : Core} (fresh : w.Fresh) (site : w.Site) (serves : M.Serves w) :
    Tidy M [] (start w).state := by
  have blank : ∀ r, (start w).state.record r = .blank := by
    intro r
    change w.store.object r = _
    rw [fresh.store]
  have none_ : ∀ d q, w.modes.modesOf d q = ∅ := by
    rw [fresh.modes]
    exact fun d q => rfl
  refine ⟨⟨⟨site, fresh.keyed, ?_, ?_, serves, ?_, ?_, ?_, ?_⟩, ?_⟩, ?_⟩
  · intro q made
    change q < w.store.next at made
    rw [fresh.store] at made
    exact absurd made (Nat.not_lt_zero q)
  · intro q _
    rw [blank]
    exact ⟨rfl, rfl⟩
  · intro d q m member
    change m ∈ w.modes.modesOf d q at member
    rw [none_] at member
    exact absurd member (Finset.notMem_empty m)
  · intro d q _ t m _ held
    change m ∈ w.modes.modesOf d q at held
    rw [none_] at held
    exact absurd held (Finset.notMem_empty m)
  · intro lfdi p entry found
    change w.dderc.applied.get? (lfdi, p) = some entry at found
    rw [fresh.dderc] at found
    cases found
  · exact fun q member => absurd member List.not_mem_nil
  · intro t m e x _ last
    cases last
  · intro pid
    change w.spawned.get? pid = none
    rw [fresh.spawned]
    rfl

theorem Tidy.ext {w : World} (tidy : Tidy M [] w) {e : Ext} (steady : SiteKept M w e) :
    Tidy M [] { w with toCore := e.apply w.toCore } := by
  have ordered := tidy.tended.ordered
  have modes : (e.apply w.toCore).modes = w.modes := by cases e <;> rfl
  have store : (e.apply w.toCore).store = w.store := by cases e <;> rfl
  have spawned : (e.apply w.toCore).spawned = w.spawned := by cases e <;> rfl
  have record : ∀ r, (e.apply w.toCore).record r = w.record r := by
    unfold Core.record
    exact fun r => by rw [store]
  have landsOn : ∀ d t, (e.apply w.toCore).LandsOn d t ↔ w.LandsOn d t := by
    unfold Core.LandsOn
    simp only [steady.devices, steady.reach, implies_true]
  have takenOver : ∀ q d, (e.apply w.toCore).TakenOver q d ↔ w.TakenOver q d := by
    unfold Core.TakenOver
    simp only [record, implies_true]
  refine ⟨⟨⟨⟨?_, ?_, steady.named⟩, ?_, ?_, ?_, steady.serves, ?_, ?_, steady.remembered, ?_⟩, ?_⟩, ?_⟩
  · intro p d mapped
    rw [steady.devices] at mapped
    exact steady.known p d mapped
  · intro p q d mapped mapped'
    rw [steady.devices] at mapped mapped'
    rw [steady.reach, steady.reach]
    exact ordered.site.agree p q d mapped mapped'
  · change (e.apply w.toCore).store.Keyed
    rw [store]
    exact ordered.keyed
  · intro q made
    change q < (e.apply w.toCore).store.next at made
    rw [store] at made
    change ((e.apply w.toCore).record q).programHref = _ ∧ _
    rw [record]
    exact ordered.meant q made
  · intro q late
    change (e.apply w.toCore).store.next ≤ q at late
    rw [store] at late
    change ((e.apply w.toCore).record q).supersededDevices = [] ∧ _
    rw [record]
    exact ordered.unmade q late
  · intro d q m member
    change m ∈ (e.apply w.toCore).modes.modesOf d q at member
    rw [modes] at member
    rw [steady.devices]
    exact ordered.registered d q m member
  · intro d q settled t m lands held
    change m ∈ (e.apply w.toCore).modes.modesOf d q at held
    rw [modes] at held
    exact ordered.written d q settled t m ((landsOn d t).mp lands) held
  · exact fun q member => absurd member List.not_mem_nil
  · intro t m entry x releasable last event
    obtain ⟨q, d, lands, then_, now⟩ := tidy.tended.inCharge t m entry x releasable last event
    refine ⟨q, d, (landsOn d t).mpr lands, then_, ?_⟩
    change m ∈ (e.apply w.toCore).modes.modesOf d q ∨ (e.apply w.toCore).TakenOver q d
    rw [modes, takenOver]
    exact now
  · intro pid
    change (e.apply w.toCore).spawned.get? pid = none
    rw [spawned]
    exact tidy.idle pid

theorem tidy_of_turns {u v : World} (run : Turns Succeeding (SiteKept M) u v) (tidy : Tidy M [] u) :
    Tidy M [] v := by
  induction run with
  | refl => exact tidy
  | job env pid j _ met ran ih =>
      obtain ⟨begun, started, rfl⟩ := Option.map_eq_some_iff.mp ran
      obtain ⟨other, _, _, rfl⟩ := begins_of_idle ih.idle started
      exact tidy_body met other _
        (ih.unmoved (Unmoved.of_events rfl rfl rfl rfl rfl rfl rfl) ih.idle)
  | ext e _ steady ih => exact ih.ext steady

/-- None of the events registered for the mode at this write has since given up a
device it was taken over on. -/
def World.NoneLeft (w : World) (t : Target) (m : Mode) (e : Issued) : Prop :=
  ∀ q d, w.LandsOn d t → m ∈ e.at_.modes.modesOf d q → m ∉ w.modes.modesOf d q →
    ¬ w.TakenOver q d

/-- Each mode that event `x` wrote last is held by another event, unless the device
was left to others. -/
def World.Answered (w : World) (x : Mrid) : Prop :=
  ∀ t m e, m.isReleasable = true → w.lastWrite t m = some e →
    e.call.writes t m = some (.event x) → w.NoneLeft t m e → w.HeldByOther x t m e

/-- What the fallback of event `r` leaves: the event is registered nowhere, and a
mode it held on a device that was not left to others, and still is the last writer
of, is held by another event. -/
structure World.FallenBack (w w' : World) (r : Ref) : Prop where
  unregistered : ∀ d, w'.modes.modesOf d (w.record r).mrid = ∅
  held : ∀ t m e, m.isReleasable = true → w'.lastWrite t m = some e →
    e.call.writes t m = some (.event (w.record r).mrid) → ∀ d, w.LandsOn d t →
      m ∈ w.modes.modesOf d (w.record r).mrid → w.leftToOthers r w.activeEvents d = false →
        w'.HeldByOther (w.record r).mrid t m e

theorem Tidy.answered {rs : List Ref} {w : World} (tidy : Tidy M rs w) {x : Mrid}
    (ended : ∀ d, w.modes.modesOf d x = ∅) : w.Answered x := by
  intro t m e releasable last event none_
  obtain ⟨q, d, lands, then_, now⟩ := tidy.tended.inCharge t m e x releasable last event
  have held : m ∈ w.modes.modesOf d q := by
    by_contra gone
    exact none_ q d lands then_ gone (now.resolve_left gone)
  refine ⟨q, d, ?_, lands, then_, held⟩
  rintro rfl
  rw [ended] at held
  exact absurd held (Finset.notMem_empty m)

theorem Tidy.fallenBack {rs : List Ref} {w : World} (tidy : Tidy M rs w) {r : Ref}
    (made : r < w.store.next) (env : Answers) (clear : Bool) :
    w.FallenBack ((applyDdercFallback r clear).eval (World.oracle env) w).2 r := by
  have ordered := tidy.tended.ordered
  obtain ⟨w', ran, sent⟩ := eval_fallback env r clear ordered.site.named
  -- The event is registered only on devices of its program.
  have mapped : ∀ d, ∀ m ∈ w.modes.modesOf d (w.record r).mrid,
      d ∈ w.devicesOf (w.record r).programHref := by
    intro d m held
    rw [(ordered.meant r made).1]
    exact (ordered.registered d _ m held).1
  rw [ran]
  refine ⟨fun d => ?_, fun t m e releasable last event d lands held kept => ?_⟩
  · rw [sent.modesOf_unregistered]
    split
    · rfl
    · rename_i other
      exact Finset.eq_empty_of_forall_notMem fun m held => other ⟨mapped d m held, rfl⟩
  · exact tidy.tended.fallback_held sent releasable lands held (mapped d m held) kept last event

end Runs

/-! ### Small sites -/

/-- A site without groups, from its tables. -/
theorem Core.Site.of_entries {w : Core} (ungrouped : w.groupLookup = none)
    (known : ∀ e ∈ w.discovered.deviceMapping.programToDevices.entries, ∀ d ∈ e.2,
      w.deviceLfdi d ≠ none)
    (named : ∀ e ∈ w.discovered.derPrograms.entries, e.2.href = e.1) : w.Site := by
  refine ⟨fun p d mapped => ?_, fun p q d _ _ => ?_, fun p ps found => ?_⟩
  · unfold Core.devicesOf DeviceMapping.devices Dict.getD at mapped
    cases found : w.discovered.deviceMapping.programToDevices.get? p with
    | none =>
        rw [found] at mapped
        exact absurd mapped List.not_mem_nil
    | some ds =>
        rw [found] at mapped
        exact known (p, ds) ((Dict.mem_entries_iff _ _ _).mpr found) d mapped
  · unfold Core.reachOf Core.groupLocalLfdis
    rw [ungrouped]
  · exact named (p, ps) ((Dict.mem_entries_iff _ _ _).mpr found)

theorem Meaning.serves_of_entries {M : Meaning} {w : Core}
    (fits : ∀ e ∈ w.discovered.derPrograms.entries, ∀ c ∈ e.2.derControls,
      M.program c.mrid = e.1 ∧ M.base c.mrid = c.base) : M.Serves w :=
  fun p ps found c listed => fits (p, ps) ((Dict.mem_entries_iff _ _ _).mpr found) c listed

/-- The clocks are no part of the site. -/
theorem Tidy.clocks {M : Meaning} {w : World} (tidy : Tidy M [] w) (clock : Option Href → Int)
    (localClock : Int) : SiteKept M w (.clocks clock localClock) where
  devices := fun _ => rfl
  reach := fun _ _ => rfl
  known := tidy.tended.ordered.site.known
  named := tidy.tended.ordered.site.named
  serves := tidy.tended.ordered.served
  remembered := tidy.tended.ordered.remembered

/-! ### A mode held by an event that was superseded there -/

/-- The second event sets the mode on two devices, the first one wins on one of
them and ends long before it. -/
def handedCore : Core :=
  plainCore
    [plainProgram "/derp/1" 5 [plainControl 2 0 1000 .opModFixedW],
      plainProgram "/derp/0" 1 [plainControl 1 0 10 .opModFixedW]]
    [("/derp/1", "/edev/1"), ("/derp/1", "/edev/2"), ("/derp/0", "/edev/1")]

def handedMeaning : Meaning where
  program := fun mrid => if mrid = 1 then "/derp/0" else "/derp/1"
  base := fun _ => ⟨{.opModFixedW}⟩

/-- Both events run. -/
def handedBefore : World := ((start handedCore).state.polled "/derp/1").polled "/derp/0"

/-- The first event has completed. -/
def handedOver : World := (handedBefore.atTime 10).fired 7

theorem handedCore_site : handedCore.Site := Core.Site.of_entries rfl (by decide) (by decide)

theorem handedCore_serves : handedMeaning.Serves handedCore :=
  Meaning.serves_of_entries (by decide)

theorem handedOver_run :
    Turns Succeeding (SiteKept handedMeaning) (start handedCore).state handedOver := by
  have polls : Turns Succeeding (SiteKept handedMeaning) (start handedCore).state handedBefore :=
    Turns.polled (Turns.polled (.refl _) fun _ => rfl) fun _ => rfl
  have tidy := tidy_of_turns polls
    (tidy_start (plainCore_fresh _ _) handedCore_site handedCore_serves)
  exact (polls.atTime (tidy.clocks _ _)).fired fun _ _ => rfl

/-- What happens around the processor leaves the devices as they are. -/
def MappingKept (w : World) (e : Ext) : Prop :=
  (∀ p, (e.apply w.toCore).devicesOf p = w.devicesOf p) ∧
    ∀ d, (e.apply w.toCore).deviceLfdi d = w.deviceLfdi d

/-- The first event also sets a limit, which supersession does not compare. -/
def narrowedCore : Core :=
  plainCore
    [plainProgram "/derp/1" 5 [{ plainControl 1 0 1000 .opModFixedW with
        base := ⟨{.opModFixedW, .opModExpLimW}⟩ }],
      plainProgram "/derp/0" 1 [plainControl 2 0 1000 .opModFixedW]]
    [("/derp/1", "/edev/1"), ("/derp/0", "/edev/1")]

/-- The second event has superseded it. -/
def narrowed : World := ((start narrowedCore).state.polled "/derp/1").polled "/derp/0"

/-- A program with a default, and an event from 10 to 20. -/
def raisedCore (primacy : Nat) : Core :=
  plainCore
    [{ plainProgram "/derp/0" primacy [plainControl 1 10 10 .opModFixedW] with
      defaultDercontrol := some ⟨9, ⟨{.opModFixedW}⟩⟩ }]
    [("/derp/0", "/edev/1")]

/-- The default was sent at primacy 1, which has since become 2. -/
def raisedBefore : World :=
  let w := (start (raisedCore 1)).state.polled "/derp/0"
  { w with discovered := (raisedCore 2).discovered, epoch := fun _ => 0, stateReady := true }

/-- The event has run. -/
def raised : World := (((raisedBefore.atTime 10).fired 2).atTime 20).fired 4

/-- Two programs on one device, with a group each; the second one has the
default. -/
def splitCore : Core :=
  { plainCore
      [plainProgram "/derp/1" 1 [plainControl 1 0 10 .opModFixedW],
        { plainProgram "/derp/2" 2 [] with defaultDercontrol := some ⟨9, ⟨{.opModFixedW}⟩⟩ }]
      [("/derp/1", "/edev/1"), ("/derp/2", "/edev/1")] with
    groupLookup := some fun p => if p = "/derp/1" then some ["01"] else some ["02"] }

/-- The event has run. -/
def split : World := (((start splitCore).state.polled "/derp/1").atTime 10).fired 2

/-- An event that runs, and its status on the server. -/
def overtakenCore (status : Option EventStatus) : Core :=
  plainCore
    [plainProgram "/derp/0" 1 [{ plainControl 1 0 100 .opModFixedW with eventStatus := status }]]
    [("/derp/0", "/edev/1")]

/-- A poll meets the event. While its acknowledgement is on its way the server
cancels it, and another poll cancels it here. -/
def overtakenRun : List (Label processor) :=
  [.start 1 (.processControls "/derp/0" 0),
    .ext (.discovered (overtakenCore (some ⟨2, none⟩)).discovered (fun _ => 0) true),
    .start 2 (.processControls "/derp/0" 0), .resume 2 Request.success]

/-- Then the first poll goes on. -/
def overtakenRest : List (Label processor) :=
  [.resume 1 Request.success, .start 3 (.dispatchAndReport 0 "/edev/1")]

def overtaken : Config ProcSig :=
  (processor.exec (start (overtakenCore none)) (overtakenRun ++ overtakenRest)).getD
    (start (overtakenCore none))

end Py20305
