import Py20305.Tariff.Processor

/-!
A price interval is relayed once.

What the cache holds for an interval is what it was first seen with, until it is pruned,
and then the interval is over by whatever offsets are drawn for it next (`Seen`). So an
interval that was relayed is the one last relayed, or it is over (`Sound`).
-/

namespace Py20305.Tariff

/-! ### Windows -/

/-- Offsets that can be drawn for an interval. -/
def TimeTariffInterval.Feasible (a : TimeTariffInterval) (offsets : Int × Int) : Prop :=
  ∃ draws : Nat × Nat, offsets =
    (RandomizationCache.computeOffset a.randomizeStart draws.1,
      RandomizationCache.computeOffset a.randomizeDuration draws.2)

/-- How far apart two ends of an interval can be. -/
def TimeTariffInterval.spread (a : TimeTariffInterval) : Nat :=
  (a.randomizeStart.getD 0).natAbs + (a.randomizeDuration.getD 0).natAbs

theorem computeOffset_sub_le (value : Option Int) (m n : Nat) :
    RandomizationCache.computeOffset value m - RandomizationCache.computeOffset value n ≤
      (value.getD 0).natAbs := by
  unfold RandomizationCache.computeOffset
  cases value with
  | none => simp
  | some v =>
      have m_lt : m % (v.natAbs + 1) < v.natAbs + 1 := Nat.mod_lt _ (Nat.succ_pos _)
      have n_lt : n % (v.natAbs + 1) < v.natAbs + 1 := Nat.mod_lt _ (Nat.succ_pos _)
      simp only [Option.getD_some]
      split
      · omega
      · split <;> omega

theorem TimeTariffInterval.Feasible.stop_le {a : TimeTariffInterval} {x y : Int × Int}
    (first : a.Feasible x) (second : a.Feasible y) :
    (a.window x).2 ≤ (a.window y).2 + a.spread := by
  obtain ⟨d, rfl⟩ := first
  obtain ⟨d', rfl⟩ := second
  have starts := computeOffset_sub_le a.randomizeStart d.1 d'.1
  have durations := computeOffset_sub_le a.randomizeDuration d.2 d'.2
  simp only [TimeTariffInterval.window, TimeTariffInterval.spread]
  omega

/-- The server time is inside a window. -/
def Inside (now : Int) (window : Int × Int) : Prop := window.1 ≤ now ∧ now < window.2

/-! ### Draws -/

/-- A cache that drew offsets for some of `intervals`, those it had none for. -/
structure Drawn (intervals : List TimeTariffInterval) (c c' : RandomizationCache) : Prop where
  kept : ∀ m offsets, c.cache.get? m = some offsets →
    c'.cache.get? m = some offsets ∧ c'.expiry.get? m = c.expiry.get? m
  new : ∀ m offsets, c.cache.get? m = none → c'.cache.get? m = some offsets →
    ∃ a ∈ intervals, a.mrid = m ∧ a.Feasible offsets ∧
      c'.expiry.get? m = some (a.window offsets).2
  others : ∀ m, (∀ a ∈ intervals, a.mrid ≠ m) → c'.cache.get? m = c.cache.get? m

theorem Drawn.refl (intervals : List TimeTariffInterval) (c : RandomizationCache) :
    Drawn intervals c c where
  kept _ _ found := ⟨found, rfl⟩
  new m offsets absent found := by
    rw [absent] at found
    cases found
  others _ _ := rfl

theorem Drawn.trans {intervals : List TimeTariffInterval} {c c' c'' : RandomizationCache}
    (first : Drawn intervals c c') (second : Drawn intervals c' c'') : Drawn intervals c c'' where
  kept m offsets found := by
    obtain ⟨found', expiry'⟩ := first.kept m offsets found
    obtain ⟨found'', expiry''⟩ := second.kept m offsets found'
    exact ⟨found'', expiry''.trans expiry'⟩
  new m offsets absent found := by
    cases mid : c'.cache.get? m with
    | none => exact second.new m offsets mid found
    | some offsets' =>
        obtain ⟨found', expiry'⟩ := second.kept m offsets' mid
        rw [found, Option.some.injEq] at found'
        obtain ⟨a, listed, same, feasible, expiry⟩ := first.new m offsets' absent mid
        subst found'
        exact ⟨a, listed, same, feasible, expiry'.trans expiry⟩
  others m absent := (second.others m absent).trans (first.others m absent)

theorem Drawn.mono {few many : List TimeTariffInterval} {c c' : RandomizationCache}
    (drawn : Drawn few c c') (more : ∀ a ∈ few, a ∈ many) : Drawn many c c' where
  kept := drawn.kept
  new m offsets absent found := by
    obtain ⟨a, listed, rest⟩ := drawn.new m offsets absent found
    exact ⟨a, more a listed, rest⟩
  others m absent := drawn.others m fun a listed => absent a (more a listed)

/-- `effective_window` returns the window of the offsets the cache then has. -/
theorem effectiveWindow_spec (a : TimeTariffInterval) (c : RandomizationCache)
    (draws : Nat × Nat) :
    Drawn [a] c (effectiveWindow a c draws).2 ∧
      ∃ offsets, (effectiveWindow a c draws).2.cache.get? a.mrid = some offsets ∧
        (effectiveWindow a c draws).1 = a.window offsets := by
  simp only [effectiveWindow, RandomizationCache.offsetsFor]
  cases found : c.cache.get? a.mrid with
  | some offsets => exact ⟨Drawn.refl _ _, offsets, found, rfl⟩
  | none =>
      refine ⟨⟨?_, ?_, ?_⟩, _, Dict.get?_set_self _ _ _, rfl⟩
      · intro m offsets found'
        have other : m ≠ a.mrid := by
          rintro rfl
          rw [found] at found'
          cases found'
        exact ⟨(Dict.get?_set_ne _ _ other).trans found', Dict.get?_set_ne _ _ other⟩
      · intro m offsets absent found'
        by_cases mine : m = a.mrid
        · subst mine
          simp only [Dict.get?_set_self, Option.some.injEq] at found'
          subst found'
          exact ⟨a, List.mem_singleton_self a, rfl, ⟨draws, rfl⟩, Dict.get?_set_self _ _ _⟩
        · simp only [Dict.get?_set, mine, if_false] at found'
          rw [absent] at found'
          cases found'
      · intro m absent
        exact Dict.get?_set_ne _ _ (absent a (List.mem_singleton_self a)).symm

/-- The best interval so far, with the offsets it is in effect with. -/
def Best (now : Int) (c : RandomizationCache) (a : TimeTariffInterval) : Prop :=
  a.cancelled = false ∧ ∃ offsets, c.cache.get? a.mrid = some offsets ∧
    Inside now (a.window offsets)

theorem Best.drawn {now : Int} {intervals : List TimeTariffInterval} {c c' : RandomizationCache}
    {a : TimeTariffInterval} (best : Best now c a) (drawn : Drawn intervals c c') :
    Best now c' a := by
  obtain ⟨live, offsets, found, inside⟩ := best
  exact ⟨live, offsets, (drawn.kept _ _ found).1, inside⟩

/-- What the loop of `active_interval` returns: an interval in effect, if there is one. -/
structure Picks (now : Int) (intervals : List TimeTariffInterval)
    (best : Option (TimeTariffInterval × Int × Int)) (c : RandomizationCache)
    (picked : Option TimeTariffInterval × RandomizationCache) : Prop where
  drawn : Drawn (intervals.filter fun a => !a.cancelled) c picked.2
  one : ∀ a, picked.1 = some a →
    (a ∈ intervals ∨ ∃ key, best = some (a, key)) ∧ Best now picked.2 a
  missed : picked.1 = none → best = none ∧ ∀ a ∈ intervals, ¬ Best now picked.2 a
  cached : ∀ a ∈ intervals, a.cancelled = false → (picked.2.cache.get? a.mrid).isSome

/-- One turn of the loop, before the others. -/
theorem Picks.cons {now : Int} {a : TimeTariffInterval} {rest : List TimeTariffInterval}
    {best best' : Option (TimeTariffInterval × Int × Int)} {c c' : RandomizationCache}
    {picked : Option TimeTariffInterval × RandomizationCache}
    (later : Picks now rest best' c' picked)
    (drawn : Drawn ([a].filter fun a => !a.cancelled) c c')
    (came : ∀ b key, best' = some (b, key) → best = some (b, key) ∨ b = a)
    (nothing : best' = none → best = none ∧ ¬ Best now picked.2 a)
    (cached : a.cancelled = false → (c'.cache.get? a.mrid).isSome) :
    Picks now (a :: rest) best c picked where
  drawn :=
    (drawn.mono ((List.singleton_sublist.mpr List.mem_cons_self).filter _).subset).trans
      (later.drawn.mono ((List.sublist_cons_self a rest).filter _).subset)
  one b found := by
    obtain ⟨whence, good⟩ := later.one b found
    refine ⟨?_, good⟩
    rcases whence with listed | ⟨key, was⟩
    · exact Or.inl (List.mem_cons_of_mem _ listed)
    · rcases came b key was with old | rfl
      · exact Or.inr ⟨key, old⟩
      · exact Or.inl List.mem_cons_self
  missed none_picked := by
    obtain ⟨none_best, none_later⟩ := later.missed none_picked
    obtain ⟨none_before, not_this⟩ := nothing none_best
    refine ⟨none_before, fun b listed => ?_⟩
    rcases List.mem_cons.mp listed with rfl | listed
    · exact not_this
    · exact none_later b listed
  cached b listed live := by
    rcases List.mem_cons.mp listed with rfl | listed
    · obtain ⟨offsets, found⟩ := Option.isSome_iff_exists.mp (cached live)
      rw [(later.drawn.kept _ _ found).1]
      rfl
    · exact later.cached b listed live

theorem pickActive_spec (now : Int) (draws : Mrid → Nat × Nat)
    (intervals : List TimeTariffInterval) (best : Option (TimeTariffInterval × Int × Int))
    (c : RandomizationCache) (good : ∀ b key, best = some (b, key) → Best now c b) :
    Picks now intervals best c (pickActive now draws intervals best c) := by
  induction intervals generalizing best c with
  | nil =>
      constructor
      · exact Drawn.refl _ _
      · intro a picked
        obtain ⟨⟨_, key⟩, found, rfl⟩ := Option.map_eq_some_iff.mp picked
        exact ⟨Or.inr ⟨key, found⟩, good _ key found⟩
      · intro nothing
        exact ⟨Option.map_eq_none_iff.mp nothing, by simp⟩
      · simp
  | cons a rest ih =>
      rw [pickActive]
      split
      · rename_i cancelled
        apply (ih best c good).cons (Drawn.refl _ _) (fun b key was => Or.inl was)
        · intro none_best
          refine ⟨none_best, fun best => ?_⟩
          rw [best.1] at cancelled
          cases cancelled
        · intro live
          rw [live] at cancelled
          cases cancelled
      · rename_i live
        obtain ⟨drawn, offsets, found, window⟩ := effectiveWindow_spec a c (draws a.mrid)
        have kept : ∀ b key, best = some (b, key) →
            Best now (effectiveWindow a c (draws a.mrid)).2 b :=
          fun b key was => (good b key was).drawn drawn
        have drawn' : Drawn ([a].filter fun a => !a.cancelled) c
            (effectiveWindow a c (draws a.mrid)).2 := by
          simpa [live] using drawn
        have cached : a.cancelled = false →
            ((effectiveWindow a c (draws a.mrid)).2.cache.get? a.mrid).isSome := by
          intro _
          rw [found]
          rfl
        simp only
        split
        · rename_i inside
          split
          · -- the interval becomes the best so far
            have mine : Best now (effectiveWindow a c (draws a.mrid)).2 a :=
              ⟨Bool.eq_false_iff.mpr live, offsets, found, by rw [← window]; exact inside⟩
            apply (ih _ _ ?_).cons drawn' _ _ cached
            · rintro b key ⟨⟩
              exact mine
            · rintro b key ⟨⟩
              exact Or.inr rfl
            · rintro ⟨⟩
          · rename_i beaten
            apply (ih best _ kept).cons drawn' (fun b key was => Or.inl was) _ cached
            intro none_best
            rw [none_best] at beaten
            exact absurd rfl beaten
        · rename_i outside
          have later := ih best _ kept
          apply later.cons drawn' (fun b key was => Or.inl was) _ cached
          intro none_best
          refine ⟨none_best, ?_⟩
          rintro ⟨_, offsets', found', inside⟩
          rw [(later.drawn.kept _ _ found).1, Option.some.injEq] at found'
          rw [window, found'] at outside
          exact outside inside

/-! ### The component -/

/-- The component is served, once, and no other interval has an mRID of its own. -/
structure Served (P : Href) (C : RateComponent) (w : World) : Prop where
  here : ∃ tp, w.profiles.get? P = some tp ∧ C ∈ tp.components
  hrefs : ∀ p tp, w.profiles.get? p = some tp → ∀ c ∈ tp.components,
    c.href = C.href → p = P ∧ c = C
  mrids : ∀ p tp, w.profiles.get? p = some tp → ∀ c ∈ tp.components, c.href ≠ C.href →
    ∀ a ∈ c.intervals, ∀ b ∈ C.intervals, a.mrid ≠ b.mrid

instance (P : Href) (C : RateComponent) (w : World) : Decidable (Served P C w) :=
  decidable_of_iff
    ((∃ tp ∈ w.profiles.get? P, C ∈ tp.components) ∧
      ∀ p ∈ w.profiles.keys, ∀ tp ∈ w.profiles.get? p, ∀ c ∈ tp.components,
        (c.href = C.href → p = P ∧ c = C) ∧
          (c.href ≠ C.href → ∀ a ∈ c.intervals, ∀ b ∈ C.intervals, a.mrid ≠ b.mrid)) <| by
    constructor
    · rintro ⟨here, each⟩
      have listed : ∀ p tp, w.profiles.get? p = some tp → p ∈ w.profiles.keys :=
        fun p tp found => (Dict.mem_keys_iff _ _).mpr ⟨tp, found⟩
      exact ⟨here, fun p tp found c c_in => (each p (listed p tp found) tp found c c_in).1,
        fun p tp found c c_in => (each p (listed p tp found) tp found c c_in).2⟩
    · rintro ⟨here, hrefs, mrids⟩
      exact ⟨here, fun p _ tp found c c_in => ⟨hrefs p tp found c c_in, mrids p tp found c c_in⟩⟩

/-- The windows of the component never overlap, however they are drawn. -/
def Apart (C : RateComponent) : Prop :=
  ∀ a ∈ C.intervals, ∀ b ∈ C.intervals, a.mrid ≠ b.mrid → ∀ x y, a.Feasible x → b.Feasible y →
    (a.window x).2 ≤ (b.window y).1 ∨ (b.window y).2 ≤ (a.window x).1

/-- What the component's intervals have to meet: their mRIDs are their own, their windows
never overlap, and no two draws end an interval more than 11 seconds apart. -/
structure Terms (C : RateComponent) : Prop where
  distinct : (C.intervals.map TimeTariffInterval.mrid).Nodup
  apart : Apart C
  spread : ∀ a ∈ C.intervals, a.spread ≤ 11

theorem Terms.same {C : RateComponent} (terms : Terms C) {a b : TimeTariffInterval}
    (a_in : a ∈ C.intervals) (b_in : b ∈ C.intervals) (same : a.mrid = b.mrid) : a = b :=
  List.inj_on_of_nodup_map terms.distinct a_in b_in same

def World.relaysOf (w : World) (m : Mrid) : List Relay :=
  w.relays.filter fun r => decide (r.notification.mrid = m)

/-- What the cache holds for an interval, at a time no earlier than any it was pruned by:
what it was first seen with, or else the interval was over for the grace of 10 seconds. -/
structure Seen (past : Int) (w : World) (a : TimeTariffInterval) : Prop where
  cached : ∀ x, w.randomization.cache.get? a.mrid = some x →
    a.Feasible x ∧ w.randomization.expiry.get? a.mrid = some (a.window x).2
  unseen : w.first.get? a.mrid = none → w.randomization.cache.get? a.mrid = none
  seen : ∀ x, w.first.get? a.mrid = some x → (a.cancelled = false ∧ a.Feasible x) ∧
    (w.randomization.cache.get? a.mrid = some x ∨ (a.window x).2 + 10 < past)

/-- The interval is over, by the window it was first seen with. -/
def Gone (past : Int) (w : World) (a : TimeTariffInterval) : Prop :=
  ∃ x, w.first.get? a.mrid = some x ∧ (a.window x).2 ≤ past

/-- The interval is the last one relayed, or it is over. -/
def Settled (C : RateComponent) (past : Int) (w : World) (a : TimeTariffInterval) : Prop :=
  (w.active.get? C.href = some (some a.mrid) ∧
    ∃ x, w.first.get? a.mrid = some x ∧ (a.window x).1 ≤ past) ∨ Gone past w a

/-- What the relays of the component come to. -/
structure Relays (P : Href) (C : RateComponent) (past : Int) (w : World) : Prop where
  time : past ≤ w.time P
  seen : ∀ a ∈ C.intervals, Seen past w a
  once : ∀ a ∈ C.intervals, (w.relaysOf a.mrid).length ≤ 1
  early : ∀ a ∈ C.intervals, ∀ r ∈ w.relaysOf a.mrid,
    ∃ x, w.first.get? a.mrid = some x ∧ r.now < (a.window x).2
  settled : ∀ a ∈ C.intervals, w.relaysOf a.mrid ≠ [] → Settled C past w a
  priced : ∀ a ∈ C.intervals, a.mrid ∈ w.priced → w.relaysOf a.mrid ≠ []

/-- A run is at work on the profile. -/
def Run.At (P : Href) (run : Run) : Prop := ∃ work, run.work = some work ∧ work.profile = P

/-- A component is the one looked at, or has none of its mRIDs. -/
def Tells (P : Href) (C : RateComponent) (p : Href) (c : RateComponent) : Prop :=
  (c.href = C.href → p = P ∧ c = C) ∧
    (c.href ≠ C.href → ∀ a ∈ c.intervals, ∀ b ∈ C.intervals, a.mrid ≠ b.mrid)

/-- The interval whose prices a run fetches for the component was not relayed, and is in
effect by the window it was first seen with; those that were relayed are over. -/
structure Fetching (C : RateComponent) (past : Int) (w : World) (a : TimeTariffInterval) :
    Prop where
  unrelayed : w.relaysOf a.mrid = []
  window : ∃ x, w.first.get? a.mrid = some x ∧ w.randomization.cache.get? a.mrid = some x ∧
    Inside past (a.window x)
  gone : ∀ b ∈ C.intervals, w.relaysOf b.mrid ≠ [] → Gone past w b

/-- What a run under way knows. -/
structure RunOk (P : Href) (C : RateComponent) (past : Int) (w : World) (run : Run) : Prop where
  tells : ∀ work, run.work = some work → ∀ c ∈ work.components, Tells P C work.profile c
  listed : ∀ work a, run.work = some work → work.fetching = some a →
    ∃ c rest, work.components = c :: rest ∧ a ∈ c.intervals ∧ c.href ∈ run.live
  now : ∀ work, run.work = some work → work.profile = P → work.now = past
  fetching : ∀ work a rest, run.work = some work → work.fetching = some a →
    work.components = C :: rest → Fetching C past w a
  visits : P ∈ run.rest ∨ (∃ work, run.work = some work ∧ C ∈ work.components) ∨
    C.href ∈ run.live

/-- The relays and the runs, at a time no earlier than any the cache was pruned by. -/
structure Sound (P : Href) (C : RateComponent) (past : Int) (w : World) : Prop where
  relays : Relays P C past w
  runs : ∀ i run, w.runs.get? i = some run → RunOk P C past w run
  alone : ∀ i j run run', w.runs.get? i = some run → w.runs.get? j = some run' →
    run.At P → run'.At P → i = j

variable {P : Href} {C : RateComponent} {past : Int} {w : World}

/-- The end of the interval a pick has the prices of: one that has changed and has no
price list. -/
def World.pickDue (w : World) (work : Work) (c : RateComponent) (draws : Mrid → Nat × Nat) :
    Option Int :=
  (activeInterval c.intervals work.now draws w.randomization).1.bind fun a =>
    if a.priceList = none ∧ some a.mrid ≠ (w.active.get? c.href).getD none then
      some (effectiveWindow a (w.picked work.now c draws).randomization (draws a.mrid)).1.2
    else none

/-- The end of the interval whose prices a fetch has brought. -/
def World.fetchDue (w : World) (a : TimeTariffInterval) (prices : Option (List Block))
    (draws : Nat × Nat) : Option Int :=
  prices.map fun _ => (effectiveWindow a w.randomization draws).1.2

/-- The end of the interval of component `C` that a step has the prices of. -/
def World.due (w : World) (C : RateComponent) : Step → Option Int
  | .select i draws =>
      ((w.runs.get? i).bind Run.work).bind fun work =>
        if work.components.head? = some C ∧ work.fetching = none then w.pickDue work C draws
        else none
  | .fetched i prices draws =>
      ((w.runs.get? i).bind Run.work).bind fun work =>
        if work.components.head? = some C then
          work.fetching.bind fun a => w.fetchDue a prices draws
        else none
  | _ => none

/-- What a step keeps that does not touch the component. -/
structure Untouched (C : RateComponent) (w w' : World) : Prop where
  cache : ∀ a ∈ C.intervals,
    w'.randomization.cache.get? a.mrid = w.randomization.cache.get? a.mrid
  expiry : ∀ a ∈ C.intervals, ∀ x, w.randomization.cache.get? a.mrid = some x →
    w'.randomization.expiry.get? a.mrid = w.randomization.expiry.get? a.mrid
  first : ∀ a ∈ C.intervals, w'.first.get? a.mrid = w.first.get? a.mrid
  active : w'.active.get? C.href = w.active.get? C.href
  relays : ∀ a ∈ C.intervals, w'.relaysOf a.mrid = w.relaysOf a.mrid
  priced : ∀ a ∈ C.intervals, a.mrid ∈ w'.priced → a.mrid ∈ w.priced

theorem Gone.mono {past' : Int} {w' : World} {a : TimeTariffInterval} (gone : Gone past w a)
    (later : past ≤ past') (first : w'.first.get? a.mrid = w.first.get? a.mrid) :
    Gone past' w' a := by
  obtain ⟨x, seen, ended⟩ := gone
  exact ⟨x, first.trans seen, ended.trans later⟩

theorem Seen.untouched {past' : Int} {w' : World} {a : TimeTariffInterval} (seen : Seen past w a)
    (a_in : a ∈ C.intervals) (same : Untouched C w w') (later : past ≤ past') :
    Seen past' w' a where
  cached x found := by
    rw [same.cache a a_in] at found
    obtain ⟨feasible, expiry⟩ := seen.cached x found
    exact ⟨feasible, (same.expiry a a_in x found).trans expiry⟩
  unseen none_first := by
    rw [same.first a a_in] at none_first
    rw [same.cache a a_in]
    exact seen.unseen none_first
  seen x found := by
    rw [same.first a a_in] at found
    obtain ⟨feasible, whence⟩ := seen.seen x found
    refine ⟨feasible, ?_⟩
    rw [same.cache a a_in]
    exact whence.imp id fun ended => ended.trans_le later

theorem Relays.untouched {past' : Int} {w' : World} (relays : Relays P C past w)
    (same : Untouched C w w') (later : past ≤ past') (time : past' ≤ w'.time P) :
    Relays P C past' w' where
  time := time
  seen a a_in := (relays.seen a a_in).untouched a_in same later
  once a a_in := by
    rw [same.relays a a_in]
    exact relays.once a a_in
  early a a_in r listed := by
    rw [same.relays a a_in] at listed
    rw [same.first a a_in]
    exact relays.early a a_in r listed
  settled a a_in relayed := by
    rw [same.relays a a_in] at relayed
    rcases relays.settled a a_in relayed with ⟨active, x, first, started⟩ | gone
    · exact Or.inl ⟨same.active.trans active, x, (same.first a a_in).trans first,
        started.trans later⟩
    · exact Or.inr (gone.mono later (same.first a a_in))
  priced a a_in listed := by
    rw [same.relays a a_in]
    exact relays.priced a a_in (same.priced a a_in listed)

/-- What a run knows stays true where the component is not touched. -/
theorem RunOk.untouched {w' : World} {run : Run} (ok : RunOk P C past w run)
    (same : Untouched C w w') : RunOk P C past w' run where
  tells := ok.tells
  listed := ok.listed
  now := ok.now
  fetching work a rest working fetching components := by
    obtain ⟨unrelayed, ⟨x, first, cache, inside⟩, gone⟩ :=
      ok.fetching work a rest working fetching components
    obtain ⟨c, rest', components', listed, _⟩ := ok.listed work a working fetching
    rw [components] at components'
    cases components'
    refine ⟨(same.relays a listed).trans unrelayed, ⟨x, (same.first a listed).trans first,
      (same.cache a listed).trans cache, inside⟩, fun b b_in relayed => ?_⟩
    rw [same.relays b b_in] at relayed
    exact (gone b b_in relayed).mono le_rfl (same.first b b_in)
  visits := ok.visits

/-- What a run knows that is not at work on the profile does not depend on its relays. -/
theorem RunOk.away {past' : Int} {w' : World} {run : Run} (ok : RunOk P C past w run)
    (away : ¬ run.At P) : RunOk P C past' w' run where
  tells := ok.tells
  listed := ok.listed
  now work working here := absurd ⟨work, working, here⟩ away
  fetching work a rest working _ components := by
    have listed : C ∈ work.components := by
      rw [components]
      exact List.mem_cons_self
    exact absurd ⟨work, working, ((ok.tells work working C listed).1 rfl).1⟩ away
  visits := ok.visits

/-! ### Steps -/

/-- One run goes on. -/
theorem Sound.set {past' : Int} {w' : World} {i : Nat} {run' : Run} (sound : Sound P C past w)
    (runs : w'.runs = w.runs.set i run') (relays : Relays P C past' w')
    (others : ∀ j run, j ≠ i → w.runs.get? j = some run → RunOk P C past' w' run)
    (mine : RunOk P C past' w' run')
    (alone : run'.At P → ∀ j run, j ≠ i → w.runs.get? j = some run → ¬ run.At P) :
    Sound P C past' w' where
  relays := relays
  runs j run found := by
    rw [runs, Dict.get?_set] at found
    split at found
    · cases found
      exact mine
    · rename_i other
      exact others j run other found
  alone j j' run run' found found' here here' := by
    rw [runs, Dict.get?_set] at found found'
    split at found
    · rename_i first
      cases found
      split at found'
      · rename_i second
        rw [first, second]
      · rename_i other
        exact absurd here' (alone here j' run' other found')
    · rename_i other
      split at found'
      · rename_i second
        cases found'
        exact absurd here (alone here' j run other found)
      · exact sound.alone j j' run run' found found' here here'

/-- One run ends. -/
theorem Sound.erase {w' : World} {i : Nat} (sound : Sound P C past w)
    (runs : w'.runs = w.runs.erase i) (same : Untouched C w w') (time : past ≤ w'.time P) :
    Sound P C past w' where
  relays := sound.relays.untouched same le_rfl time
  runs j run found := by
    rw [runs, Dict.get?_erase] at found
    split at found
    · cases found
    · exact (sound.runs j run found).untouched same
  alone j j' run run' found found' := by
    rw [runs, Dict.get?_erase] at found found'
    split at found
    · cases found
    · split at found'
      · cases found'
      · exact sound.alone j j' run run' found found'

theorem Untouched.of_eq {w' : World} (cache : w'.randomization = w.randomization)
    (first : w'.first = w.first) (active : w'.active.get? C.href = w.active.get? C.href)
    (relays : w'.relays = w.relays) (priced : w'.priced = w.priced) : Untouched C w w' where
  cache a _ := by rw [cache]
  expiry a _ x _ := by rw [cache]
  first a _ := by rw [first]
  active := active
  relays a _ := by rw [World.relaysOf, relays, World.relaysOf]
  priced a _ listed := priced ▸ listed

theorem foldl_min_le (times : List Int) (t : Int) : times.foldl min t ≤ t := by
  induction times generalizing t with
  | nil => exact le_rfl
  | cons u rest ih => exact (ih (min t u)).trans (min_le_left _ _)

theorem foldl_min_le_of_mem {times : List Int} {t u : Int} (listed : u ∈ times) :
    times.foldl min t ≤ u := by
  induction times generalizing t with
  | nil => cases listed
  | cons v rest ih =>
      rcases List.mem_cons.mp listed with rfl | later
      · exact (foldl_min_le rest (min t u)).trans (min_le_right _ _)
      · exact ih later

/-- The cache is pruned by a time no later than the profile's. -/
theorem Served.pruneTime_le (served : Served P C w) : w.pruneTime ≤ w.time P := by
  obtain ⟨tp, found, _⟩ := served.here
  have listed : w.clock tp.fsa ∈ w.profiles.values.map fun tp => w.clock tp.fsa :=
    List.mem_map.mpr ⟨tp, (Dict.mem_values_iff _ _).mpr ⟨P, found⟩, rfl⟩
  unfold World.pruneTime World.time
  rw [found, Option.bind_some]
  cases times : w.profiles.values.map fun tp => w.clock tp.fsa with
  | nil =>
      rw [times] at listed
      cases listed
  | cons t rest =>
      rw [times] at listed
      rcases List.mem_cons.mp listed with first | later
      · exact first ▸ foldl_min_le rest t
      · exact foldl_min_le_of_mem later

/-- Pruning forgets only what is over for longer than the grace. -/
theorem Seen.prune {a : TimeTariffInterval} (seen : Seen past w a) {past' t : Int}
    (later : past ≤ past') (bound : t ≤ past') {w' : World}
    (cache : w'.randomization = w.randomization.prune t) (first : w'.first = w.first) :
    Seen past' w' a := by
  have cache_eq : ∀ m, w'.randomization.cache.get? m =
      (w.randomization.cache.get? m).filter fun _ =>
        !((w.randomization.expiry.get? m).any fun e => e + 10 < t) := by
    intro m
    rw [cache, RandomizationCache.prune, Dict.get?_filter]
  have expiry_eq : ∀ m, w'.randomization.expiry.get? m =
      (w.randomization.expiry.get? m).filter fun _ =>
        !((w.randomization.expiry.get? m).any fun e => e + 10 < t) := by
    intro m
    rw [cache, RandomizationCache.prune, Dict.get?_filter]
  constructor
  · intro x found
    rw [cache_eq, Option.filter_eq_some_iff] at found
    obtain ⟨was, kept⟩ := found
    obtain ⟨feasible, expiry⟩ := seen.cached x was
    refine ⟨feasible, ?_⟩
    rw [expiry_eq, expiry, Option.filter_some]
    rw [expiry] at kept
    exact if_pos kept
  · intro none_first
    rw [first] at none_first
    rw [cache_eq, seen.unseen none_first]
    rfl
  · intro x found
    rw [first] at found
    obtain ⟨feasible, cached | ended⟩ := seen.seen x found
    · refine ⟨feasible, ?_⟩
      rw [cache_eq, cached, (seen.cached x cached).2, Option.filter_some]
      by_cases ended : (a.window x).2 + 10 < t
      · exact Or.inr (ended.trans_le bound)
      · left
        simp [ended]
    · exact ⟨feasible, Or.inr (ended.trans_le later)⟩

/-- Time goes on where no run is at work on the profile. -/
theorem Sound.begin (sound : Sound P C past w) (served : Served P C w) (i : Nat)
    (free : ∀ j run, w.runs.get? j = some run → ¬ run.At P) :
    Sound P C (w.time P) (w.begin i) := by
  have later := sound.relays.time
  have relays : ∀ runs, Relays P C (w.time P)
      { w with randomization := w.randomization.prune w.pruneTime, runs := runs } := by
    intro runs
    exact
      { time := le_rfl
        seen := fun a a_in =>
          (sound.relays.seen a a_in).prune later served.pruneTime_le rfl rfl
        once := sound.relays.once
        early := sound.relays.early
        settled := by
          intro a a_in relayed
          rcases sound.relays.settled a a_in relayed with ⟨active, x, first, started⟩ | gone
          · exact Or.inl ⟨active, x, first, started.trans later⟩
          · exact Or.inr (gone.mono later rfl)
        priced := sound.relays.priced }
  unfold World.begin
  simp only
  split
  · exact
      { relays := relays w.runs
        runs := fun j run found => (sound.runs j run found).away (free j run found)
        alone := sound.alone }
  · refine sound.set rfl (relays _) (fun j run _ found => ?_) ?_ ?_
    · exact (sound.runs j run found).away (free j run found)
    · obtain ⟨tp, found, _⟩ := served.here
      exact
        { tells := fun _ working => nomatch working
          listed := fun _ _ working => nomatch working
          now := fun _ working => nomatch working
          fetching := fun _ _ _ working => nomatch working
          visits := Or.inl ((Dict.mem_keys_iff _ _).mpr ⟨tp, found⟩) }
    · rintro ⟨_, ⟨⟩, _⟩

theorem Run.At.of_left {run : Run} {work : Work} (working : run.work = some work)
    (here : (run.left work).At P) : run.At P := by
  obtain ⟨work', working', profile⟩ := here
  refine ⟨work, working, ?_⟩
  unfold Run.left at working'
  split at working'
  · cases working'
    exact profile
  · cases working'

theorem RunOk.left {past' : Int} {w' : World} {run : Run} {work : Work} {c : RateComponent}
    {rest : List RateComponent} (ok : RunOk P C past w run) (same_time : past' = past)
    (working : run.work = some work) (components : work.components = c :: rest)
    (live : c.href ∈ run.live) : RunOk P C past' w' (run.left work) := by
  subst same_time
  have visits := ok.visits
  have tells := ok.tells work working
  have now := ok.now work working
  rw [components] at tells
  cases rest with
  | nil =>
      have left : run.left work = { run with work := none } := by
        rw [Run.left, components]
      rw [left]
      exact
        { tells := fun _ none_left => nomatch none_left
          listed := fun _ _ none_left => nomatch none_left
          now := fun _ none_left => nomatch none_left
          fetching := fun _ _ _ none_left => nomatch none_left
          visits := by
            rcases visits with todo | ⟨work', working', listed⟩ | seen
            · exact Or.inl todo
            · rw [working, Option.some.injEq] at working'
              subst working'
              rw [components, List.mem_singleton] at listed
              exact Or.inr (Or.inr (listed ▸ live))
            · exact Or.inr (Or.inr seen) }
  | cons next rest =>
      have left : run.left work = { run with
          work := some { work with components := next :: rest, fetching := none } } := by
        rw [Run.left, components]
      rw [left]
      exact
        { tells := by
            rintro _ ⟨⟩ d listed
            exact tells d (List.mem_cons_of_mem _ listed)
          listed := by rintro _ _ ⟨⟩ ⟨⟩
          now := by
            rintro _ ⟨⟩ here
            exact now here
          fetching := by rintro _ _ _ ⟨⟩ ⟨⟩
          visits := by
            rcases visits with todo | ⟨work', working', listed⟩ | seen
            · exact Or.inl todo
            · rw [working, Option.some.injEq] at working'
              subst working'
              rw [components] at listed
              rcases List.mem_cons.mp listed with rfl | later
              · exact Or.inr (Or.inr live)
              · exact Or.inr (Or.inl ⟨_, rfl, later⟩)
            · exact Or.inr (Or.inr seen) }

/-- The run goes on to a profile, or ends. -/
theorem Sound.nextProfile (sound : Sound P C past w) (served : Served P C w) {i : Nat} {run : Run}
    (found : w.runs.get? i = some run) (idle : run.work = none)
    (free : run.rest.head? = some P → ∀ j run, w.runs.get? j = some run → ¬ run.At P) :
    ∃ past', Sound P C past' (w.nextProfile i run) := by
  have same : ∀ runs, Untouched C w { w with runs := runs } :=
    fun runs => Untouched.of_eq rfl rfl rfl rfl rfl
  have away : ¬ run.At P := by
    rintro ⟨_, working, _⟩
    rw [idle] at working
    cases working
  unfold World.nextProfile
  cases rest_eq : run.rest with
  | nil => exact ⟨past, sound⟩
  | cons href rest =>
      rw [rest_eq] at free
      simp only
      split
      · cases profile : w.profiles.get? href with
        | none => exact ⟨past, sound.erase rfl (same _) sound.relays.time⟩
        | some tp =>
            simp only
            have visits := (sound.runs i run found).visits
            rw [rest_eq] at visits
            have tells : ∀ c ∈ tp.components, Tells P C href c := fun c listed =>
              ⟨served.hrefs href tp profile c listed, served.mrids href tp profile c listed⟩
            by_cases mine : href = P
            · -- the profile's time is read here
              subst mine
              have free := free rfl
              obtain ⟨tp', profile', component⟩ := served.here
              rw [profile, Option.some.injEq] at profile'
              subst profile'
              have not_empty : tp.components.isEmpty = false := by
                cases components : tp.components with
                | nil =>
                    rw [components] at component
                    cases component
                | cons _ _ => rfl
              have time : w.time href = w.clock tp.fsa := by
                rw [World.time, profile, Option.bind_some]
              refine ⟨w.time href, sound.set rfl
                (sound.relays.untouched (same _) sound.relays.time le_rfl)
                (fun j run _ found => (sound.runs j run found).away (free j run found)) ?_
                (fun _ j run _ found => free j run found)⟩
              rw [not_empty]
              exact
                { tells := by
                    rintro _ ⟨⟩ c listed
                    exact tells c listed
                  listed := by rintro _ _ ⟨⟩ ⟨⟩
                  now := by
                    rintro _ ⟨⟩ _
                    exact time.symm
                  fetching := by rintro _ _ _ ⟨⟩ ⟨⟩
                  visits := Or.inr (Or.inl ⟨_, rfl, component⟩) }
            · -- what is worked on, if anything, is a profile of which nothing was done yet
              have opened : ∀ work : Work, (if tp.components.isEmpty = true then none else
                  some { profile := href, now := w.clock tp.fsa, components := tp.components,
                         fetching := none }) = some work →
                  work.profile = href ∧ work.fetching = none ∧ work.components = tp.components := by
                intro work working
                split at working
                · cases working
                · cases working
                  exact ⟨rfl, rfl, rfl⟩
              refine ⟨past, sound.set rfl
                (sound.relays.untouched (same _) le_rfl sound.relays.time)
                (fun j run _ found => (sound.runs j run found).untouched (same _)) ?_ ?_⟩
              · have todo : P ∈ rest ∨ C.href ∈ run.live := by
                  rcases visits with todo | ⟨_, working, _⟩ | seen
                  · rcases List.mem_cons.mp todo with here | later
                    · exact absurd here.symm mine
                    · exact Or.inl later
                  · rw [idle] at working
                    cases working
                  · exact Or.inr seen
                constructor
                · intro work working
                  rw [(opened work working).1, (opened work working).2.2]
                  exact tells
                · intro work a working fetching
                  rw [(opened work working).2.1] at fetching
                  cases fetching
                · intro work working here
                  exact absurd ((opened work working).1.symm.trans here) mine
                · intro work a _ working fetching
                  rw [(opened work working).2.1] at fetching
                  cases fetching
                · exact todo.imp id Or.inr
              · rintro ⟨work, working, here⟩
                exact absurd ((opened work working).1.symm.trans here) mine
      · exact ⟨past, sound.erase rfl (same _) sound.relays.time⟩

/-! ### Picking -/

theorem get?_noteFirst (c : RandomizationCache) (intervals : List TimeTariffInterval)
    (first : Dict Mrid (Int × Int)) (m : Mrid) :
    (noteFirst c intervals first).get? m =
      (first.get? m).or (if ∃ a ∈ intervals, a.mrid = m then c.cache.get? m else none) := by
  induction intervals generalizing first with
  | nil => simp [noteFirst]
  | cons a rest ih =>
      have rest_eq := ih (noteOne c first a)
      rw [noteFirst, List.foldl_cons]
      rw [noteFirst] at rest_eq
      rw [rest_eq, noteOne]
      by_cases mine : a.mrid = m
      · subst mine
        cases before : first.get? a.mrid with
        | some x => simp [before]
        | none =>
            cases now : c.cache.get? a.mrid with
            | some x => simp
            | none => simp [before]
      · have other : m ≠ a.mrid := fun h => mine h.symm
        cases before : first.get? a.mrid with
        | some x => simp [mine]
        | none =>
            cases now : c.cache.get? a.mrid with
            | some x => simp [Dict.get?_set, other, mine]
            | none => simp [mine]

theorem Untouched.trans {w' w'' : World} (first : Untouched C w w') (second : Untouched C w' w'') :
    Untouched C w w'' where
  cache a a_in := (second.cache a a_in).trans (first.cache a a_in)
  expiry a a_in x found :=
    (second.expiry a a_in x ((first.cache a a_in).trans found)).trans
      (first.expiry a a_in x found)
  first a a_in := (second.first a a_in).trans (first.first a a_in)
  active := second.active.trans first.active
  relays a a_in := (second.relays a a_in).trans (first.relays a a_in)
  priced a a_in listed := first.priced a a_in (second.priced a a_in listed)

/-- Another component's intervals are picked. -/
theorem Untouched.picked {c : RateComponent} (now : Int) (draws : Mrid → Nat × Nat)
    (others : ∀ a ∈ c.intervals, ∀ b ∈ C.intervals, a.mrid ≠ b.mrid) :
    Untouched C w (w.picked now c draws) := by
  have drawn := (pickActive_spec now draws c.intervals none w.randomization
    (fun _ _ none_best => nomatch none_best)).drawn
  have absent : ∀ b ∈ C.intervals, ¬ ∃ a ∈ c.intervals, a.mrid = b.mrid := by
    rintro b b_in ⟨a, listed, same⟩
    exact others a listed b b_in same
  constructor
  · intro b b_in
    exact drawn.others b.mrid fun a listed => others a (List.mem_of_mem_filter listed) b b_in
  · intro b _ x found
    exact (drawn.kept b.mrid x found).2
  · intro b b_in
    rw [World.picked, get?_noteFirst, if_neg (absent b b_in), Option.or_none]
  · rfl
  · exact fun _ _ => rfl
  · exact fun _ _ listed => listed

/-- Another component's interval is relayed. -/
theorem Untouched.relay {run : Run} {work : Work} {component : Href} {a : TimeTariffInterval}
    {prices : List Block} {draws : Nat × Nat} (other : component ≠ C.href)
    (others : ∀ b ∈ C.intervals, a.mrid ≠ b.mrid) :
    Untouched C w ((w.gotPrices a).relay run work component a prices draws) := by
  obtain ⟨drawn, _⟩ := effectiveWindow_spec a w.randomization draws
  constructor
  · intro b b_in
    refine drawn.others b.mrid fun a' listed => ?_
    rw [List.mem_singleton.mp listed]
    exact others b b_in
  · intro b _ x found
    exact (drawn.kept b.mrid x found).2
  · exact fun _ _ => rfl
  · exact Dict.get?_set_ne _ _ other.symm
  · intro b b_in
    simp [World.relaysOf, World.relay, World.gotPrices, List.filter_append, others b b_in]
  · intro b b_in listed
    simp only [World.relay, World.gotPrices, List.mem_append, List.mem_singleton] at listed
    exact listed.resolve_right fun same => others b b_in same.symm

variable {draws : Mrid → Nat × Nat}

/-- What an interval of the component is first seen with stays. -/
theorem first_picked {now : Int} {m : Mrid} {x : Int × Int} (found : w.first.get? m = some x) :
    (w.picked now C draws).first.get? m = some x := by
  rw [World.picked, get?_noteFirst, found]
  rfl

theorem Seen.picked {a : TimeTariffInterval} (terms : Terms C) (seen : Seen past w a)
    (a_in : a ∈ C.intervals) (now : Int) : Seen past (w.picked now C draws) a := by
  have drawn := (pickActive_spec now draws C.intervals none w.randomization
    (fun _ _ none_best => nomatch none_best)).drawn
  have new : ∀ x, w.randomization.cache.get? a.mrid = none →
      (w.picked now C draws).randomization.cache.get? a.mrid = some x →
      a.cancelled = false ∧ a.Feasible x ∧
        (w.picked now C draws).randomization.expiry.get? a.mrid = some (a.window x).2 := by
    intro x absent found
    obtain ⟨b, listed, same, feasible, expiry⟩ := drawn.new a.mrid x absent found
    obtain ⟨b_in, live⟩ := List.mem_filter.mp listed
    obtain rfl := terms.same b_in a_in same
    exact ⟨by simpa using live, feasible, expiry⟩
  have first_eq : (w.picked now C draws).first.get? a.mrid =
      (w.first.get? a.mrid).or ((w.picked now C draws).randomization.cache.get? a.mrid) := by
    rw [World.picked, get?_noteFirst, if_pos ⟨a, a_in, rfl⟩]
  constructor
  · intro x found
    cases before : w.randomization.cache.get? a.mrid with
    | none => exact (new x before found).2
    | some y =>
        obtain ⟨kept, expiry⟩ := drawn.kept a.mrid y before
        have same : some y = some x := kept.symm.trans found
        cases same
        obtain ⟨feasible, expiry'⟩ := seen.cached x before
        exact ⟨feasible, expiry.trans expiry'⟩
  · intro none_first
    rw [first_eq, Option.or_eq_none_iff] at none_first
    exact none_first.2
  · intro x found
    cases before : w.first.get? a.mrid with
    | some y =>
        rw [first_eq, before, Option.some_or, Option.some.injEq] at found
        subst found
        obtain ⟨live, whence⟩ := seen.seen y before
        exact ⟨live, whence.imp (fun cached => (drawn.kept a.mrid y cached).1) id⟩
    | none =>
        rw [first_eq, before, Option.none_or] at found
        obtain ⟨live, feasible, _⟩ := new x (seen.unseen before) found
        exact ⟨⟨live, feasible⟩, Or.inl found⟩

theorem Relays.picked (terms : Terms C) (relays : Relays P C past w) (now : Int) :
    Relays P C past (w.picked now C draws) where
  time := relays.time
  seen a a_in := (relays.seen a a_in).picked terms a_in now
  once := relays.once
  early a a_in r listed := by
    obtain ⟨x, found, before⟩ := relays.early a a_in r listed
    exact ⟨x, first_picked found, before⟩
  settled a a_in relayed := by
    rcases relays.settled a a_in relayed with ⟨active, x, found, started⟩ | ⟨x, found, ended⟩
    · exact Or.inl ⟨active, x, first_picked found, started⟩
    · exact Or.inr ⟨x, first_picked found, ended⟩
  priced := relays.priced

/-- An interval in effect is in effect by the window it was first seen with. -/
theorem Seen.first_of_inside {a : TimeTariffInterval} (seen : Seen past w a) (short : a.spread ≤ 11)
    {x : Int × Int} (cached : w.randomization.cache.get? a.mrid = some x)
    (inside : Inside past (a.window x)) : w.first.get? a.mrid = some x := by
  cases found : w.first.get? a.mrid with
  | none =>
      rw [seen.unseen found] at cached
      cases cached
  | some y =>
      obtain ⟨⟨_, feasible⟩, cached' | ended⟩ := seen.seen y found
      · rw [cached'] at cached
        exact cached
      · have bound := (seen.cached x cached).1.stop_le feasible
        obtain ⟨_, before⟩ := inside
        omega

/-- An interval that is picked is in effect by its first window. -/
theorem Relays.picked_first (terms : Terms C) (relays : Relays P C past w)
    {a : TimeTariffInterval}
    (chosen : (activeInterval C.intervals past draws w.randomization).1 = some a) :
    a ∈ C.intervals ∧ ∃ x, (w.picked past C draws).first.get? a.mrid = some x ∧
      (w.picked past C draws).randomization.cache.get? a.mrid = some x ∧
      Inside past (a.window x) := by
  have picks := pickActive_spec past draws C.intervals none w.randomization
    (fun _ _ none_best => nomatch none_best)
  obtain ⟨listed | ⟨_, none_best⟩, _, x, cached, inside⟩ := picks.one a chosen
  · have seen : Seen past (w.picked past C draws) a :=
      (relays.seen a listed).picked terms listed past
    exact ⟨listed, x, seen.first_of_inside (terms.spread a listed) cached inside, cached, inside⟩
  · cases none_best

/-- An interval that was relayed and is not the one picked is over. -/
theorem Relays.gone (terms : Terms C) (relays : Relays P C past w) {b : TimeTariffInterval}
    (b_in : b ∈ C.intervals) (relayed : w.relaysOf b.mrid ≠ [])
    (not_chosen : ((activeInterval C.intervals past draws w.randomization).1.map
      TimeTariffInterval.mrid) ≠ some b.mrid) : Gone past (w.picked past C draws) b := by
  have seen : Seen past (w.picked past C draws) b :=
    (relays.seen b b_in).picked terms b_in past
  have picked : Relays P C past (w.picked past C draws) := relays.picked terms past
  have picks := pickActive_spec past draws C.intervals none w.randomization
    (fun _ _ none_best => nomatch none_best)
  rcases picked.settled b b_in relayed with
    ⟨_, x, first, started⟩ | gone
  · refine ⟨x, first, ?_⟩
    by_contra running
    obtain ⟨⟨live, feasible⟩, cached | ended⟩ := seen.seen x first
    · -- it is in effect, so it was picked, or another one was that overlaps it
      have best : Best past (activeInterval C.intervals past draws w.randomization).2 b :=
        ⟨live, x, cached, started, not_le.mp running⟩
      cases chosen : (activeInterval C.intervals past draws w.randomization).1 with
      | none => exact (picks.missed chosen).2 b b_in best
      | some a =>
          obtain ⟨a_in, y, _, cached', inside⟩ := relays.picked_first terms chosen
          rw [chosen, Option.map_some, Ne, Option.some.injEq] at not_chosen
          have feasible' := ((picked.seen a a_in).cached y cached').1
          obtain ⟨start_le, lt_stop⟩ := inside
          rcases terms.apart a a_in b b_in not_chosen y x feasible' feasible with before | after
          · omega
          · omega
    · omega
  · exact gone

/-! ### Relaying -/

/-- An interval that is fetched for is relayed, once. -/
theorem Relays.relay (terms : Terms C) (relays : Relays P C past w) {a : TimeTariffInterval}
    (a_in : a ∈ C.intervals) (fetching : Fetching C past w a) {run : Run} {work : Work}
    (here : work.profile = P) (prices : List Block) (draws : Nat × Nat)
    (early : w.time P < (effectiveWindow a w.randomization draws).1.2) :
    Relays P C past ((w.gotPrices a).relay run work C.href a prices draws) := by
  obtain ⟨x, first, cached, inside⟩ := fetching.window
  have cache_same : (effectiveWindow a w.randomization draws).2 = w.randomization := by
    simp only [effectiveWindow, RandomizationCache.offsetsFor, cached]
  have window_same : (effectiveWindow a w.randomization draws).1 = a.window x := by
    simp only [effectiveWindow, RandomizationCache.offsetsFor, cached]
  have cache_eq : ((w.gotPrices a).relay run work C.href a prices draws).randomization =
      w.randomization := cache_same
  have relays_eq : ∀ m, ((w.gotPrices a).relay run work C.href a prices draws).relaysOf m =
      w.relaysOf m ++ (if a.mrid = m then
        [{ now := w.time work.profile
           notification :=
            { mrid := a.mrid, component := C.href,
              start := (effectiveWindow a w.randomization draws).1.1,
              stop := (effectiveWindow a w.randomization draws).1.2,
              prices := prices, lfdis := run.lfdis } }] else []) := by
    intro m
    by_cases mine : a.mrid = m <;>
      simp [World.relaysOf, World.relay, World.gotPrices, World.time, List.filter_append, mine]
  have others : ∀ b ∈ C.intervals, b ≠ a → a.mrid ≠ b.mrid :=
    fun b b_in differs same => differs (terms.same b_in a_in same.symm)
  constructor
  · exact relays.time
  · intro b b_in
    have seen := relays.seen b b_in
    constructor
    · rw [cache_eq]
      exact seen.cached
    · rw [cache_eq]
      exact seen.unseen
    · rw [cache_eq]
      exact seen.seen
  · intro b b_in
    rw [relays_eq]
    by_cases mine : b = a
    · subst mine
      rw [fetching.unrelayed, if_pos rfl]
      exact le_rfl
    · rw [if_neg (others b b_in mine), List.append_nil]
      exact relays.once b b_in
  · intro b b_in r listed
    rw [relays_eq] at listed
    by_cases mine : b = a
    · subst mine
      rw [fetching.unrelayed, if_pos rfl, List.nil_append, List.mem_singleton] at listed
      rw [listed]
      refine ⟨x, first, ?_⟩
      rw [here, ← window_same]
      exact early
    · rw [if_neg (others b b_in mine), List.append_nil] at listed
      exact relays.early b b_in r listed
  · intro b b_in relayed
    by_cases mine : b = a
    · subst mine
      exact Or.inl ⟨Dict.get?_set_self _ _ _, x, first, inside.1⟩
    · rw [relays_eq, if_neg (others b b_in mine), List.append_nil] at relayed
      exact Or.inr (fetching.gone b b_in relayed)
  · intro b b_in listed
    rw [relays_eq]
    by_cases mine : b = a
    · subst mine
      simp
    · rw [if_neg (others b b_in mine), List.append_nil]
      simp only [World.relay, World.gotPrices, List.mem_append, List.mem_singleton] at listed
      rcases listed with old | same
      · exact relays.priced b b_in old
      · exact absurd same.symm (others b b_in mine)

/-- No other run is at work on the profile. -/
theorem Sound.others_away (sound : Sound P C past w) {i : Nat} {run : Run}
    (found : w.runs.get? i = some run) (here : run.At P) :
    ∀ j run', j ≠ i → w.runs.get? j = some run' → ¬ run'.At P :=
  fun j run' other found' here' => other (sound.alone j i run' run found' found here' here)

/-- A run is done with a component, and the others know what they knew. -/
theorem Sound.leave (sound : Sound P C past w) {i : Nat} {run : Run} {work : Work}
    {c : RateComponent} {rest : List RateComponent} (found : w.runs.get? i = some run)
    (working : run.work = some work) (components : work.components = c :: rest)
    {w' : World} (relays : Relays P C past w') (runs : w'.runs = w.runs)
    (others : ∀ j run', j ≠ i → w.runs.get? j = some run' → RunOk P C past w' run')
    {live : List Href} (more : ∀ href ∈ run.live, href ∈ live) (seen : c.href ∈ live) :
    Sound P C past (w'.leave i { run with live := live } work) := by
  have left_same : Untouched C w' (w'.leave i { run with live := live } work) :=
    Untouched.of_eq rfl rfl rfl rfl rfl
  have ok := sound.runs i run found
  have ok' : RunOk P C past w { run with live := live } :=
    { tells := ok.tells
      listed := fun work a working fetching => by
        obtain ⟨c, rest, components, listed, seen⟩ := ok.listed work a working fetching
        exact ⟨c, rest, components, listed, more _ seen⟩
      now := ok.now
      fetching := ok.fetching
      visits := ok.visits.imp id (Or.imp id (more _)) }
  refine sound.set (by rw [World.leave, runs]) (relays.untouched left_same le_rfl relays.time)
    (fun j run' other found' => (others j run' other found').untouched left_same)
    (ok'.left rfl working components seen) (fun here => ?_)
  have stood : Run.At P { run with live := live } := Run.At.of_left working here
  exact sound.others_away found stood

/-- A run waits for the prices of an interval. -/
theorem Sound.fetch (sound : Sound P C past w) {i : Nat} {run : Run} {work : Work}
    {c : RateComponent} {rest : List RateComponent} (found : w.runs.get? i = some run)
    (working : run.work = some work) (components : work.components = c :: rest)
    {w' : World} (relays : Relays P C past w') (runs : w'.runs = w.runs)
    (others : ∀ j run', j ≠ i → w.runs.get? j = some run' → RunOk P C past w' run')
    {a : TimeTariffInterval} (listed : a ∈ c.intervals)
    (fetching : c = C → Fetching C past w' a) :
    Sound P C past (w'.wait i { run with live := c.href :: run.live } work a) := by
  have same : Untouched C w' (w'.wait i { run with live := c.href :: run.live } work a) :=
    Untouched.of_eq rfl rfl rfl rfl rfl
  have ok := sound.runs i run found
  refine sound.set (by rw [World.wait, runs]) (relays.untouched same le_rfl relays.time)
    (fun j run' other found' => (others j run' other found').untouched same) ?_ ?_
  · constructor
    · rintro _ ⟨⟩ d in_work
      exact ok.tells work working d in_work
    · rintro _ _ ⟨⟩ ⟨⟩
      exact ⟨c, rest, components, listed, List.mem_cons_self⟩
    · rintro _ ⟨⟩ here
      exact ok.now work working here
    · rintro _ _ rest' ⟨⟩ ⟨⟩ head
      have head : work.components = C :: rest' := head
      rw [components] at head
      cases head
      obtain ⟨unrelayed, window, gone⟩ := fetching rfl
      exact ⟨unrelayed, window, gone⟩
    · rcases ok.visits with todo | ⟨work', working', in_work⟩ | seen
      · exact Or.inl todo
      · rw [working, Option.some.injEq] at working'
        subst working'
        exact Or.inr (Or.inl ⟨_, rfl, in_work⟩)
      · exact Or.inr (Or.inr (List.mem_cons_of_mem _ seen))
  · rintro ⟨_, ⟨⟩, here⟩
    exact sound.others_away found ⟨work, working, here⟩

/-- A component that is not the one looked at is picked from. -/
theorem Sound.select_other (sound : Sound P C past w) {i : Nat} {run : Run} {work : Work}
    {c : RateComponent} {rest : List RateComponent} (found : w.runs.get? i = some run)
    (working : run.work = some work) (components : work.components = c :: rest)
    (other : c.href ≠ C.href) : Sound P C past (w.select i run work c draws) := by
  have ok := sound.runs i run found
  have in_work : c ∈ work.components := by
    rw [components]
    exact List.mem_cons_self
  have own := (ok.tells work working c in_work).2 other
  have same : Untouched C w (w.picked work.now c draws) := Untouched.picked _ _ own
  have leave : ∀ w', Untouched C w w' → w'.time P = w.time P → w'.runs = w.runs →
      Sound P C past (w'.leave i { run with live := c.href :: run.live } work) :=
    fun w' untouched time runs => sound.leave found working components
      (sound.relays.untouched untouched le_rfl (time ▸ sound.relays.time)) runs
      (fun j run' _ found' => (sound.runs j run' found').untouched untouched)
      (fun _ seen => List.mem_cons_of_mem _ seen) List.mem_cons_self
  have picks := pickActive_spec work.now draws c.intervals none w.randomization
    (fun _ _ none_best => nomatch none_best)
  unfold World.select
  simp only
  split
  · exact leave _ same rfl rfl
  · cases chosen : (activeInterval c.intervals work.now draws w.randomization).1 with
    | none =>
        simp only
        exact leave _ (same.trans (Untouched.of_eq rfl rfl
          (Dict.get?_set_ne _ _ other.symm) rfl rfl)) rfl rfl
    | some a =>
        have listed : a ∈ c.intervals := by
          rcases (picks.one a chosen).1 with listed | ⟨_, none_best⟩
          · exact listed
          · cases none_best
        cases price : a.priceList with
        | none =>
            simp only [price]
            exact leave _ (same.trans (Untouched.relay other (own a listed))) rfl rfl
        | some _ =>
            simp only [price]
            exact sound.fetch found working components
              (sound.relays.untouched same le_rfl sound.relays.time) rfl
              (fun j run' _ found' => (sound.runs j run' found').untouched same) listed
              (fun is_ours => absurd (congrArg RateComponent.href is_ours) other)

/-- The component itself is picked from. -/
theorem Sound.select_own (terms : Terms C) (sound : Sound P C past w) {i : Nat} {run : Run}
    {work : Work} {rest : List RateComponent} (found : w.runs.get? i = some run)
    (working : run.work = some work) (components : work.components = C :: rest)
    (early : ∀ stop ∈ w.pickDue work C draws, w.time P < stop) :
    Sound P C past (w.select i run work C draws) := by
  have ok := sound.runs i run found
  have in_work : C ∈ work.components := by
    rw [components]
    exact List.mem_cons_self
  have here := ((ok.tells work working C in_work).1 rfl).1
  have now := ok.now work working here
  have away := sound.others_away found ⟨work, working, here⟩
  have picked : Relays P C past (w.picked work.now C draws) := sound.relays.picked terms work.now
  have leave : ∀ w', Relays P C past w' → w'.runs = w.runs →
      Sound P C past (w'.leave i { run with live := C.href :: run.live } work) :=
    fun w' relays runs => sound.leave found working components relays runs
      (fun j run' differs found' => (sound.runs j run' found').away (away j run' differs found'))
      (fun _ seen => List.mem_cons_of_mem _ seen) List.mem_cons_self
  have gone : ∀ b ∈ C.intervals, w.relaysOf b.mrid ≠ [] →
      ((activeInterval C.intervals work.now draws w.randomization).1.map
        TimeTariffInterval.mrid) ≠ some b.mrid →
      Gone past (w.picked work.now C draws) b := by
    rw [now]
    exact fun b b_in relayed => sound.relays.gone terms b_in relayed
  unfold World.select
  simp only
  split
  · exact leave _ picked rfl
  · rename_i changed
    cases chosen : (activeInterval C.intervals work.now draws w.randomization).1 with
    | none =>
        rw [chosen] at gone
        refine leave _ ?_ rfl
        exact
          { time := picked.time
            seen := fun b b_in => ⟨(picked.seen b b_in).cached, (picked.seen b b_in).unseen,
              (picked.seen b b_in).seen⟩
            once := picked.once
            early := picked.early
            settled := fun b b_in relayed => Or.inr (gone b b_in relayed (by simp))
            priced := picked.priced }
    | some a =>
        rw [chosen, Option.map_some] at changed gone
        have chosen' := chosen
        rw [now] at chosen'
        obtain ⟨a_in, x, first, cached, inside⟩ := sound.relays.picked_first terms chosen'
        rw [← now] at first cached
        have fetching : Fetching C past (w.picked work.now C draws) a := by
          have unrelayed : w.relaysOf a.mrid = [] := by
            by_contra relayed
            rcases sound.relays.settled a a_in relayed with ⟨active, _⟩ | ⟨y, seen, ended⟩
            · have active' : ((w.picked work.now C draws).active.get? C.href).getD none =
                  some a.mrid := by
                rw [World.picked, active, Option.getD_some]
              exact changed active'.symm
            · have same : (w.picked work.now C draws).first.get? a.mrid = some y :=
                first_picked seen
              rw [first, Option.some.injEq] at same
              subst same
              exact absurd inside.2 (not_lt.mpr ended)
          refine ⟨unrelayed, ⟨x, first, cached, inside⟩, fun b b_in relayed => ?_⟩
          apply gone b b_in relayed
          intro same
          rw [Option.some.injEq] at same
          exact relayed (same ▸ unrelayed)
        cases price : a.priceList with
        | none =>
            simp only [price]
            refine leave _ (picked.relay terms a_in fetching here [] _ (early _ ?_)) rfl
            rw [World.pickDue, chosen, Option.bind_some, if_pos ⟨price, changed⟩]
            rfl
        | some _ =>
            simp only [price]
            exact sound.fetch found working components picked rfl
              (fun j run' differs found' =>
                (sound.runs j run' found').away (away j run' differs found')) a_in
              (fun _ => fetching)

/-- The prices a run waited for arrive, or do not. -/
theorem Sound.fetched (terms : Terms C) (sound : Sound P C past w) {i : Nat} {run : Run}
    {work : Work} {c : RateComponent} {rest : List RateComponent} {a : TimeTariffInterval}
    (found : w.runs.get? i = some run) (working : run.work = some work)
    (components : work.components = c :: rest) (waiting : work.fetching = some a)
    (prices : Option (List Block)) (draws : Nat × Nat)
    (early : c = C → ∀ stop ∈ w.fetchDue a prices draws, w.time P < stop) :
    Sound P C past (w.fetched i run work c a prices draws) := by
  have ok := sound.runs i run found
  have in_work : c ∈ work.components := by
    rw [components]
    exact List.mem_cons_self
  obtain ⟨c', rest', components', listed, live⟩ := ok.listed work a working waiting
  rw [components] at components'
  cases components'
  have tells := ok.tells work working c in_work
  cases prices with
  | none =>
      exact sound.leave found working components sound.relays rfl
        (fun j run' _ found' => sound.runs j run' found') (fun _ seen => seen) live
  | some blocks =>
      by_cases mine : c.href = C.href
      · obtain ⟨here, rfl⟩ := tells.1 mine
        have away := sound.others_away found ⟨work, working, here⟩
        exact sound.leave found working components
          (sound.relays.relay terms listed (ok.fetching work a rest working waiting components)
            here blocks draws (early rfl _ rfl)) rfl
          (fun j run' differs found' =>
            (sound.runs j run' found').away (away j run' differs found'))
          (fun _ seen => seen) live
      · have same : Untouched C w ((w.gotPrices a).relay run work c.href a blocks draws) :=
          Untouched.relay mine (tells.2 mine a listed)
        exact sound.leave found working components
          (sound.relays.untouched same le_rfl sound.relays.time) rfl
          (fun j run' _ found' => (sound.runs j run' found').untouched same)
          (fun _ seen => seen) live

/-- A run ends: the component is not forgotten, as the run saw it. -/
theorem Sound.finish (sound : Sound P C past w) {i : Nat} {run : Run}
    (found : w.runs.get? i = some run) (idle : run.work = none) (done : run.rest = []) :
    Sound P C past (w.finish i run) := by
  have live : C.href ∈ run.live := by
    rcases (sound.runs i run found).visits with todo | ⟨_, working, _⟩ | seen
    · rw [done] at todo
      cases todo
    · rw [idle] at working
      cases working
    · exact seen
  have active : (w.finish i run).active.get? C.href = w.active.get? C.href := by
    rw [World.finish, Dict.get?_filter]
    cases w.active.get? C.href with
    | none => rfl
    | some last => simp [live]
  have same : Untouched C w (w.finish i run) := Untouched.of_eq rfl rfl active rfl rfl
  exact sound.erase rfl same sound.relays.time

/-! ### Runs -/

/-- A run is at work on the profile. -/
def World.atWork (P : Href) (w : World) : Bool :=
  w.runs.values.any fun run => run.work.any fun work => decide (work.profile = P)

/-- The step prunes the cache, or reads the profile's time. -/
def turns (P : Href) (w : World) : Step → Bool
  | .begin _ => true
  | .profile i => ((w.runs.get? i).bind fun run => run.rest.head?) = some P
  | _ => false

/-- The component is served all along, time does not go back, runs take turns at the
profile, and the prices of an interval come before its end. -/
structure Orderly (P : Href) (C : RateComponent) (w : World) (l : Step) (w' : World) : Prop where
  served : Served P C w'
  time : w.time P ≤ w'.time P
  turn : turns P w l = true → w.atWork P = false
  due : ∀ stop ∈ w.due C l, w.time P < stop

instance (P : Href) (C : RateComponent) (w : World) (l : Step) (w' : World) :
    Decidable (Orderly P C w l w') :=
  decidable_of_iff
    (Served P C w' ∧ w.time P ≤ w'.time P ∧ (turns P w l = true → w.atWork P = false) ∧
      ∀ stop ∈ w.due C l, w.time P < stop)
    ⟨fun ⟨served, time, turn, due⟩ => ⟨served, time, turn, due⟩,
      fun orderly => ⟨orderly.served, orderly.time, orderly.turn, orderly.due⟩⟩

theorem not_at {w : World} (free : w.atWork P = false) (j : Nat) (run : Run)
    (found : w.runs.get? j = some run) : ¬ run.At P := by
  rintro ⟨work, working, here⟩
  have listed : run ∈ w.runs.values := (Dict.mem_values_iff _ _).mpr ⟨j, found⟩
  have busy : w.atWork P = true := by
    rw [World.atWork, List.any_eq_true]
    refine ⟨run, listed, ?_⟩
    rw [working]
    exact decide_eq_true here
  rw [free] at busy
  cases busy

/-- What every step keeps. -/
theorem Sound.step (terms : Terms C) {l : Step} {w' : World} (stepped : w.step l = some w')
    (orderly : Orderly P C w l w') (served : Served P C w) (sound : Sound P C past w) :
    ∃ past', Sound P C past' w' := by
  cases l with
  | begin i =>
      simp only [World.step] at stepped
      split at stepped
      · cases stepped
      · cases stepped
        exact ⟨_, sound.begin served i (not_at (orderly.turn rfl))⟩
  | profile i =>
      simp only [World.step] at stepped
      split at stepped
      · rename_i run found
        split at stepped
        · cases stepped
        · rename_i idle
          cases stepped
          simp only [Bool.or_eq_true, not_or, Option.not_isSome_iff_eq_none] at idle
          apply sound.nextProfile served found idle.1
          intro next
          apply not_at
          apply orderly.turn
          simp only [turns, found, Option.bind_some, next, decide_true]
      · cases stepped
  | select i draws =>
      simp only [World.step] at stepped
      split at stepped
      · rename_i run found
        split at stepped
        · rename_i work working
          split at stepped
          · rename_i c rest components waiting
            cases stepped
            by_cases mine : c.href = C.href
            · have listed : c ∈ work.components := by
                rw [components]
                exact List.mem_cons_self
              obtain ⟨_, rfl⟩ :=
                ((sound.runs i run found).tells work working c listed).1 mine
              refine ⟨past, sound.select_own terms found working components fun stop due => ?_⟩
              refine orderly.due stop ?_
              simp only [World.due, found, working, components, waiting, Option.bind_some,
                List.head?_cons, and_self, if_true]
              exact due
            · exact ⟨past, sound.select_other found working components mine⟩
          · cases stepped
        · cases stepped
      · cases stepped
  | fetched i prices draws =>
      simp only [World.step] at stepped
      split at stepped
      · rename_i run found
        split at stepped
        · rename_i work working
          split at stepped
          · rename_i c rest a components waiting
            cases stepped
            refine ⟨past, sound.fetched terms found working components waiting prices draws ?_⟩
            rintro rfl stop due
            refine orderly.due stop ?_
            simp only [World.due, found, working, components, waiting, Option.bind_some,
              List.head?_cons, if_true]
            exact due
          · cases stepped
        · cases stepped
      · cases stepped
  | finish i =>
      simp only [World.step] at stepped
      split at stepped
      · rename_i run found
        split at stepped
        · rename_i done
          cases stepped
          simp only [Bool.and_eq_true, Option.isNone_iff_eq_none, List.isEmpty_iff] at done
          exact ⟨past, sound.finish found done.1 done.2⟩
        · cases stepped
      · cases stepped
  | abort i =>
      simp only [World.step] at stepped
      split at stepped
      · cases stepped
        exact ⟨past, sound.erase rfl (Untouched.of_eq rfl rfl rfl rfl rfl) sound.relays.time⟩
      · cases stepped
  | change clock profiles devices =>
      cases stepped
      have same : Untouched C w
          { w with clock := clock, profiles := profiles, devices := devices } :=
        Untouched.of_eq rfl rfl rfl rfl rfl
      exact ⟨past,
        { relays := sound.relays.untouched same le_rfl (sound.relays.time.trans orderly.time)
          runs := fun i run found => (sound.runs i run found).untouched same
          alone := sound.alone }⟩

theorem World.Fresh.sound {w : World} (fresh : w.Fresh) : Sound P C (w.time P) w := by
  have none_relayed : ∀ m, w.relaysOf m = [] := by
    intro m
    rw [World.relaysOf, fresh.relays, List.filter_nil]
  constructor
  · constructor
    · exact le_rfl
    · intro a _
      have nothing : w.randomization.cache.get? a.mrid = none := by
        rw [fresh.randomization]
        rfl
      have unseen : w.first.get? a.mrid = none := by
        rw [fresh.first]
        rfl
      constructor
      · intro x found
        rw [nothing] at found
        cases found
      · exact fun _ => nothing
      · intro x found
        rw [unseen] at found
        cases found
    · intro a _
      rw [none_relayed]
      exact Nat.zero_le _
    · intro a _ r listed
      rw [none_relayed] at listed
      cases listed
    · intro a _ relayed
      exact absurd (none_relayed a.mrid) relayed
    · intro a _ listed
      rw [fresh.priced] at listed
      cases listed
  · intro i run found
    rw [fresh.runs] at found
    cases found
  · intro i j run run' found
    rw [fresh.runs] at found
    cases found

/-- In every run of a new processor in which the component is served all along, time does
not go back, the runs of `process_tariffs` take turns at the component's profile and
prices come before the end of their interval, an interval is relayed at most once, at a
time before the end it was first seen with, and it is relayed if its prices were fetched. -/
theorem relayed_once (terms : Terms C) {w₀ : World} (fresh : w₀.Fresh) (served : Served P C w₀)
    (run : processor.Run (Orderly P C) w₀ w) (a : TimeTariffInterval) (a_in : a ∈ C.intervals) :
    (w.relaysOf a.mrid).length ≤ 1 ∧
      (∀ r ∈ w.relaysOf a.mrid, ∃ x, w.first.get? a.mrid = some x ∧ r.now < (a.window x).2) ∧
      (a.mrid ∈ w.priced → w.relaysOf a.mrid ≠ []) := by
  have sound : Served P C w ∧ ∃ past, Sound P C past w := by
    apply run.keeps (P := fun w => Served P C w ∧ ∃ past, Sound P C past w) _
      ⟨served, _, fresh.sound⟩
    rintro l t u stepped orderly ⟨served, past, sound⟩
    exact ⟨orderly.served, sound.step terms stepped orderly served⟩
  obtain ⟨_, _, sound⟩ := sound
  exact ⟨sound.relays.once a a_in, sound.relays.early a a_in, sound.relays.priced a a_in⟩

/-- A quarter hour. -/
def quarter (mrid : Mrid) (start : Int) (randomizeDuration : Option Int) : TimeTariffInterval where
  mrid := mrid
  start := start
  duration := 900
  randomizeStart := none
  randomizeDuration := randomizeDuration
  eventStatus := none
  creationTime := none
  priceList := some "/cti"

/-- A profile with one component, before the first run. -/
def serving (C : RateComponent) : World where
  clock _ := 0
  profiles := Dict.empty.set "/tp" { fsa := none, components := [C] }
  devices := ["a1"]
  randomization := {}
  active := Dict.empty
  runs := Dict.empty
  relays := []
  priced := []
  first := Dict.empty

theorem serving_fresh (C : RateComponent) : (serving C).Fresh :=
  ⟨rfl, rfl, rfl, rfl, rfl, rfl⟩

/-- Time passes. -/
def pass (C : RateComponent) (t : Int) : Step :=
  .change (fun _ => t) (serving C).profiles ["a1"]

/-- A run up to its price fetch. -/
def fetch (i draw : Nat) : List Step := [.begin i, .profile i, .select i fun _ => (0, draw)]

/-- Two quarter hours, neither randomized. -/
def hours : RateComponent := { href := "/rc", intervals := [quarter 1 0 none, quarter 2 900 none] }

theorem feasible_quarter {mrid : Mrid} {start : Int} {x : Int × Int}
    (feasible : (quarter mrid start none).Feasible x) : x = (0, 0) := by
  obtain ⟨_, rfl⟩ := feasible
  rfl

theorem hours_terms : Terms hours where
  distinct := by decide
  apart := by
    intro a a_in b b_in differs x y x_feasible y_feasible
    simp only [hours, List.mem_cons, List.not_mem_nil, or_false] at a_in b_in
    rcases a_in with rfl | rfl <;> rcases b_in with rfl | rfl
    · exact absurd rfl differs
    · obtain rfl := feasible_quarter x_feasible
      obtain rfl := feasible_quarter y_feasible
      exact Or.inl (by decide)
    · obtain rfl := feasible_quarter x_feasible
      obtain rfl := feasible_quarter y_feasible
      exact Or.inr (by decide)
    · exact absurd rfl differs
  spread := by decide

/-- A price fetch that fails, one that succeeds, and the next quarter hour. -/
def inTurn : List Step :=
  fetch 0 0 ++ [.fetched 0 none (0, 0), .finish 0, pass hours 300] ++
    fetch 1 0 ++ [.fetched 1 (some []) (0, 0), .finish 1, pass hours 900] ++
    fetch 2 0 ++ [.fetched 2 (some []) (0, 0), .finish 2]

theorem relayed_once_inTurn : ∃ w, processor.Run (Orderly "/tp" hours) (serving hours) w ∧
    w.relaysOf 2 ≠ [] ∧ (w.relaysOf 1).length ≤ 1 := by
  have priced : (processor.execMeeting (Orderly "/tp" hours) (serving hours) inTurn).map
      (fun w => World.priced w) = some [1, 2] := by decide +kernel
  obtain ⟨w, executed, all⟩ := Option.map_eq_some_iff.mp priced
  have run := Machine.run_of_meeting _ executed
  have once := relayed_once hours_terms (serving_fresh hours) (by decide) run
  refine ⟨w, run, (once (quarter 2 900 none) (by decide)).2.2 ?_,
    (once (quarter 1 0 none) (by decide)).1⟩
  rw [all]
  decide

/-- The component is served all along, and time does not go back. -/
structure Steady (P : Href) (C : RateComponent) (w w' : World) : Prop where
  served : Served P C w'
  time : w.time P ≤ w'.time P

instance (P : Href) (C : RateComponent) (w w' : World) : Decidable (Steady P C w w') :=
  decidable_of_iff (Served P C w' ∧ w.time P ≤ w'.time P)
    ⟨fun ⟨served, time⟩ => ⟨served, time⟩, fun steady => ⟨steady.served, steady.time⟩⟩

/-- Whatever a run of a new processor does, no interval is relayed twice. -/
def NeverTwice (P : Href) (C : RateComponent) : Prop :=
  ∀ w₀ w : World, w₀.Fresh → Served P C w₀ →
    processor.Run (fun w _ w' => Steady P C w w') w₀ w →
      ∀ a ∈ C.intervals, (w.relaysOf a.mrid).length ≤ 1

theorem not_neverTwice {C : RateComponent} (steps : List Step) (a : TimeTariffInterval)
    (served : Served "/tp" C (serving C)) (a_in : a ∈ C.intervals)
    (twice : (processor.execMeeting (fun w _ w' => Steady "/tp" C w w') (serving C) steps).map
      (fun w => (World.relaysOf w a.mrid).length) = some 2) : ¬ NeverTwice "/tp" C := by
  intro never
  obtain ⟨w, executed, two⟩ := Option.map_eq_some_iff.mp twice
  have few := never _ w (serving_fresh C) served (Machine.run_of_meeting _ executed) a a_in
  rw [two] at few
  exact absurd few (by decide)

/-- Whatever a run of a new processor does, no interval is relayed after the end it was
first seen with. -/
def NeverLate (P : Href) (C : RateComponent) : Prop :=
  ∀ w₀ w : World, w₀.Fresh → Served P C w₀ →
    processor.Run (fun w _ w' => Steady P C w w') w₀ w →
      ∀ a ∈ C.intervals, ∀ r ∈ w.relaysOf a.mrid,
        ∃ x, w.first.get? a.mrid = some x ∧ r.now < (a.window x).2

/-- Two runs wait for the prices of one interval. -/
def atOnce : List Step :=
  fetch 0 0 ++ fetch 1 0 ++ [.fetched 0 (some []) (0, 0), .fetched 1 (some []) (0, 0)]

/-- A quarter hour that is drawn out by up to a minute. -/
def drawnOut : RateComponent := { href := "/rc", intervals := [quarter 1 0 (some 60)] }

/-- Its offsets are forgotten while it is served, and it is drawn out. -/
def drawnAgain : List Step :=
  fetch 0 0 ++ [.fetched 0 (some []) (0, 0), .finish 0, pass drawnOut 900] ++
    fetch 1 0 ++ [.finish 1, pass drawnOut 911] ++ fetch 2 60 ++ [.fetched 2 (some []) (0, 0)]

/-- Prices that take two seconds, and come when the interval is over. -/
def late : List Step :=
  [pass hours 899] ++ fetch 0 0 ++ [pass hours 901, .fetched 0 (some []) (0, 0)]

/-- Two runs at once relay an interval twice, and so do runs one after the other that draw
its offsets again. Prices that come late are relayed late. -/
theorem relayed_twice :
    (Apart hours ∧ ¬ NeverTwice "/tp" hours) ∧ (Apart drawnOut ∧ ¬ NeverTwice "/tp" drawnOut) ∧
      ¬ NeverLate "/tp" hours := by
  have single : Apart drawnOut := by
    intro a a_in b b_in differs
    obtain rfl := List.mem_singleton.mp a_in
    obtain rfl := List.mem_singleton.mp b_in
    exact absurd rfl differs
  refine ⟨⟨hours_terms.apart, ?_⟩, ⟨single, ?_⟩, fun never => ?_⟩
  · exact not_neverTwice atOnce (quarter 1 0 none) (by decide) (by decide) (by decide +kernel)
  · exact not_neverTwice drawnAgain (quarter 1 0 (some 60)) (by decide) (by decide)
      (by decide +kernel)
  · have relayed : (processor.execMeeting (fun w _ w' => Steady "/tp" hours w w') (serving hours)
        late).map (fun w => ((World.relaysOf w 1).map Relay.now, w.first.get? 1)) =
          some ([901], some (0, 0)) := by decide +kernel
    obtain ⟨w, executed, is_⟩ := Option.map_eq_some_iff.mp relayed
    obtain ⟨times, first⟩ := Prod.mk.injEq .. ▸ is_
    obtain ⟨r, listed, made⟩ : ∃ r ∈ World.relaysOf w 1, r.now = 901 :=
      List.mem_map.mp (times ▸ List.mem_singleton_self _)
    obtain ⟨x, seen, early⟩ := never _ w (serving_fresh hours) (by decide)
      (Machine.run_of_meeting _ executed) (quarter 1 0 none) (by decide) r listed
    have zero : x = (0, 0) := Option.some.inj (seen.symm.trans first)
    rw [made, zero] at early
    exact absurd early (by decide)

end Py20305.Tariff
